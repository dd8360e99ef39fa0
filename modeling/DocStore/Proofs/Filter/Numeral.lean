import DocStore.Proofs.Dialect.Origin
import DocStore.Proofs.Filter.Member
import DocStore.Proofs.Number.Literal
import DocStore.Sql.Quoting

/-!
Numbers in expressions. What a filter brings into its SQL stands in literals,
but for the numbers that operators write without quotes. Each of these stands in
the SQL, so all that stands outside of literals is made of fixed words and
numeric literals exactly when the numbers are finite.
-/

namespace DocStore.Dialect

open DocStore.Filter

variable {d : Dialect} {criteria v : Value} {field : Text} {n : Number}

/-! ### The numbers of an operator -/

/-- SQL that has a number in it, if it is made at all. -/
abbrev Shows (n : Number) : Except Fault Sql → Prop :=
  ComesTo (Piece.number n.display ∈ ·) fun _ => True

/-- What is done before a number is written does not matter. -/
theorem Shows.after {α : Type} {f : α → Except Fault Sql} (e : Except Fault α)
    (hf : ∀ a, Shows n (f a)) : Shows n (e >>= f) := by
  cases e with
  | error _ => trivial
  | ok a => exact hf a

theorem Shows.bind {e : Except Fault Sql} {f : Sql → Except Fault Sql} (h : Shows n e)
    (hf : ∀ s, .number n.display ∈ s → Shows n (f s)) : Shows n (e >>= f) := ComesTo.bind h hf

theorem literal_shows (hbare : d.hasBareNumbers = true) (hn : v.numeric? = some n) :
    Shows n (d.literal v) := by
  cases v with
  | bool b =>
    cases hn
    rw [literal, truthLiteral, if_pos hbare]
    cases b <;> exact List.mem_singleton_self _
  | int _ | float _ =>
    cases hn
    rw [literal, numberLiteral, if_pos hbare]
    exact List.mem_singleton_self _
  | _ => cases hn

/-- One of the parts that are put together has the number. -/
theorem shows_join (separator : String) {f : Value → Except Fault Sql} {vs : List Value}
    (hv : v ∈ vs) (hf : Shows n (f v)) :
    ComesTo (fun parts => .number n.display ∈ Sql.join separator parts) (fun _ => True)
      (vs.mapM f) := by
  cases hparts : vs.mapM f with
  | error _ => trivial
  | ok parts =>
    obtain ⟨part, hpart, hmem⟩ := exists_ok_of_mapM_ok hparts hv
    exact Sql.subset_join hmem (hf.of_ok hpart)

theorem literals_shows {vs : List Value} (hbare : d.hasBareNumbers = true) (hv : v ∈ vs)
    (hn : v.numeric? = some n) : Shows n (d.literals vs) :=
  (shows_join ", " hv (literal_shows hbare hn)).bind fun _ hs => .pure hs

theorem compares_shows (op : Operator) (selector : Sql) (hbare : d.hasBareNumbers = true)
    (hn : v.numeric? = some n) : Shows n (d.compares op field selector v) := by
  unfold compares
  split
  · trivial
  · have hcompare (target : Sql) : Shows n (do
        return target ++ (" " ++ comparisonSign op ++ " ") ++ (← d.literal v)) :=
      (literal_shows hbare hn).bind fun s hs => .pure (by simp [hs])
    dsimp only
    split
    · exact .after _ hcompare
    · exact hcompare selector

theorem among_shows (op : Operator) (selector : Sql) {vs : List Value} {w : Value}
    (hbare : d.hasBareNumbers = true) (hvs : v.items? = some vs) (hw : w ∈ vs)
    (hn : w.numeric? = some n) : Shows n (d.among op selector v) := by
  obtain ⟨first, rest, rfl⟩ := List.exists_cons_of_ne_nil (List.ne_nil_of_mem hw)
  rw [among, hvs]
  exact (literals_shows hbare hw hn).bind fun s hs => .pure (by simp [hs])

theorem has_shows (hbare : d.hasBareNumbers = true) (hn : v.numeric? = some n) :
    Shows n (d.has field v) := by
  have hengine : d.engine = .sqlite := by simpa [hasBareNumbers] using hbare
  rw [has, hengine]
  exact .after _ fun path => (literal_shows hbare hn).bind fun s hs => .pure (by simp [hs])

theorem hasAll_shows {vs : List Value} (hbare : d.hasBareNumbers = true) (hv : v ∈ vs)
    (hn : v.numeric? = some n) : Shows n (d.hasAll field vs) := by
  have hengine : d.engine = .sqlite := by simpa [hasBareNumbers] using hbare
  rw [hasAll, hengine]
  exact (shows_join " AND " hv (has_shows hbare hn)).bind
    fun items hitems => .pure (by simp [hitems])

theorem hasSize_shows (size : Nat) : Shows (.int size) (d.hasSize field size) := by
  have hcount : (Number.int size).display = Text.ofNat size := rfl
  unfold hasSize
  dsimp only
  split
  · exact .after _ fun target => .pure (by simp [hcount])
  · exact .after _ fun target => .pure (by simp [hcount])
  · exact .after _ fun path => .pure (by simp [hcount])

theorem leaves_shows {divisor remainder : Number} (hn : n ∈ [divisor, remainder]) :
    Shows n (d.leaves field divisor remainder) := by
  have hpair : n = divisor ∨ n = remainder := by simpa using hn
  unfold leaves
  dsimp only
  split
  · exact .after _ fun target => .pure (by rcases hpair with rfl | rfl <;> simp)
  · exact .after _ fun target => .pure (by rcases hpair with rfl | rfl <;> simp)
  · exact .after _ fun target => .pure (by rcases hpair with rfl | rfl <;> simp)

/-- What an operator makes has all of its numbers without quotes in it. -/
theorem operator_shows {op : Operator} (hn : n ∈ d.bareNumbers op v) :
    ComesTo (fun s : Option Sql => ∃ part ∈ s, .number n.display ∈ part) (fun _ => True)
      (d.operator op field v) := by
  have hsome {e : Except Fault Sql} (he : Shows n e) :
      ComesTo (fun s : Option Sql => ∃ part ∈ s, .number n.display ∈ part) (fun _ => True)
        (some <$> e) := he.map fun s hs => ⟨s, rfl, hs⟩
  have hscalar (h : d.bareNumbers op v = if d.hasBareNumbers then v.numeric?.toList else []) :
      d.hasBareNumbers = true ∧ v.numeric? = some n := by
    rw [h] at hn
    split at hn
    next hbare => exact ⟨hbare, by simpa using hn⟩
    next => cases hn
  have hitem (h : d.bareNumbers op v =
        if d.hasBareNumbers then (v.items?.getD []).filterMap Value.numeric? else []) :
      d.hasBareNumbers = true ∧ ∃ vs w, v.items? = some vs ∧ w ∈ vs ∧ w.numeric? = some n := by
    rw [h] at hn
    split at hn
    next hbare =>
      obtain ⟨w, hw, hnumeric⟩ := List.mem_filterMap.mp hn
      cases hitems : v.items? with
      | none => simp [hitems] at hw
      | some vs => exact ⟨hbare, vs, w, rfl, by simpa [hitems] using hw, hnumeric⟩
    next => cases hn
  unfold operator
  have hselector : ComesTo (fun _ => True) (fun _ => True) (d.selector field true) := by
    cases d.selector field true <;> trivial
  refine hselector.bind fun s _ => ?_
  cases op with
  | eq | ne =>
    obtain ⟨hbare, hnumeric⟩ := hscalar rfl
    have hnull : v.isNull = false := by cases v <;> first | rfl | cases hnumeric
    simp only [hnull, Bool.false_eq_true, if_false]
    exact ComesTo.bind (literal_shows hbare hnumeric) fun t ht => .pure ⟨_, rfl, by simp [ht]⟩
  | gt | gte | lt | lte =>
    obtain ⟨hbare, hnumeric⟩ := hscalar rfl
    exact hsome (compares_shows _ s hbare hnumeric)
  | oneOf | noneOf =>
    obtain ⟨hbare, vs, w, hvs, hw, hnumeric⟩ := hitem rfl
    exact hsome (among_shows _ s hbare hvs hw hnumeric)
  | has =>
    obtain ⟨hbare, hnumeric⟩ := hscalar rfl
    dsimp only
    split
    · trivial
    · exact hsome (has_shows hbare hnumeric)
  | all =>
    obtain ⟨hbare, vs, w, hvs, hw, hnumeric⟩ := hitem rfl
    dsimp only
    split
    next => trivial
    next hscalars =>
      obtain ⟨hlist, -⟩ := items_of_scalarsOf hscalars
      cases hvs.symm.trans hlist
      cases hw
    next us _ hscalars =>
      obtain ⟨hlist, -⟩ := items_of_scalarsOf hscalars
      obtain rfl : vs = us := Option.some.inj (hvs.symm.trans hlist)
      exact hsome (hasAll_shows hbare hw hnumeric)
  | size =>
    dsimp only
    split
    next size =>
      obtain rfl : n = .int size := by simpa [bareNumbers, Value.number?] using hn
      exact hsome (hasSize_shows size)
    · trivial
  | mod =>
    dsimp only
    split
    · trivial
    next divisor remainder hdivision =>
      rw [bareNumbers, hdivision] at hn
      exact hsome (leaves_shows hn)
  | regex | present | text | options | func | fuzzy => cases hn

/-! ### The numbers of a filter -/

/-- A number that one of the conditions of a filter writes without quotes. -/
def HasBareNumber (d : Dialect) (criteria : Value) (n : Number) : Prop :=
  ∃ field key v op, HasCondition criteria field key v ∧ Operator.parse? key = some op ∧
    n ∈ d.bareNumbers op v

/-- Every number that a condition writes without quotes stands in the SQL. -/
theorem HasBareNumber.mem {sql : Sql} (hn : d.HasBareNumber criteria n)
    (h : d.expression criteria = .ok (some sql)) : .number n.display ∈ sql := by
  obtain ⟨field, key, v, op, hcondition, hop, hn⟩ := hn
  obtain ⟨op', s, hop', -, hs, hcontained⟩ := exists_operator_of_hasCondition hcondition h
  obtain rfl : op = op' := Option.some.inj (hop.symm.trans hop')
  obtain ⟨part, hpart, hmem⟩ := (operator_shows hn).of_ok hs
  obtain ⟨whole, ⟨⟩, hsubset⟩ := hcontained part hpart
  exact hsubset hmem

/-- What a piece of an expression is. -/
theorem piece_of_expression {sql : Sql} (h : d.expression criteria = .ok (some sql)) :
    ∀ p ∈ sql, (∃ w ∈ words ++ Condition.words, p = .code w) ∨
      p = .identifier (quoteName d.engine.nameMark "document") ∨ (∃ t, p = .literal t) ∨
      ∃ n, p = .number n.display ∧ d.HasBareNumber criteria n := by
  refine (expression_comesTo (R := fun _ => True) (fun _ => trivial) (fun w hw => ?_)
    (fun _ _ _ _ => .inr fun _ => trivial)
    fun field key v op hcondition hop hsupported => ?_).of_ok h sql rfl
  · exact .inl ⟨w, List.mem_append_right _ hw, rfl⟩
  · refine (operator_writes hsupported field v).mono (fun s hs sql hsql p hp => ?_)
      fun _ _ => trivial
    cases hs sql hsql p hp with
    | word hw => exact .inl ⟨_, List.mem_append_left _ hw, rfl⟩
    | column => exact .inr (.inl rfl)
    | fixed _ | path _ _ | text _ _ => exact .inr (.inr (.inl ⟨_, rfl⟩))
    | number hn => exact .inr (.inr (.inr ⟨_, rfl, field, key, v, op, hcondition, hop, hn⟩))

/-- Every piece of an expression that stands outside of its literals is a fixed word, the column of
the documents, or a number that a condition of the filter has; all of those numbers stand there; and
they are all numeric literals exactly when they are all finite. -/
theorem expression_numbers {sql : Sql} (h : d.expression criteria = .ok (some sql)) :
    (∀ p ∈ sql, (∃ w ∈ words ++ Condition.words, p = .code w) ∨
        p = .identifier (quoteName d.engine.nameMark "document") ∨ (∃ t, p = .literal t) ∨
        ∃ n, p = .number n.display ∧ d.HasBareNumber criteria n) ∧
      (∀ n, d.HasBareNumber criteria n → .number n.display ∈ sql) ∧
      ((∀ t, .number t ∈ sql → IsNumericLiteral t) ↔
        ∀ n, d.HasBareNumber criteria n → n.isFinite = true) := by
  refine ⟨piece_of_expression h, fun n hn => hn.mem h, fun hliterals n hn => ?_,
    fun hfinite t ht => ?_⟩
  · exact n.isNumericLiteral_display.mp (hliterals _ (hn.mem h))
  · rcases piece_of_expression h _ ht with ⟨w, -, ⟨⟩⟩ | ⟨⟨⟩⟩ | ⟨t, ⟨⟩⟩ | ⟨n, ⟨⟩, hn⟩
    exact n.isNumericLiteral_display.mpr (hfinite n hn)

/-- Integers and a truth value in two conditions on a field. -/
theorem expression_numbers_integers :
    let d : Dialect := ⟨.sqlite, fun t => .ok (doubleQuoted t)⟩
    let criteria : Value := .object [("a", .object [("$in", .list [.int (-7), .bool true]),
      ("$mod", .list [.int 3])])]
    ∃ sql, d.expression criteria = .ok (some sql) ∧ .number "-7" ∈ sql ∧
      ∀ t, .number t ∈ sql → IsNumericLiteral t := by
  intro d criteria
  have hsql : ∃ sql, d.expression criteria = .ok (some sql) := ⟨_, rfl⟩
  obtain ⟨sql, hsql⟩ := hsql
  obtain ⟨-, hstand, hliterals⟩ := expression_numbers hsql
  have hseven : d.HasBareNumber criteria (.int (-7)) :=
    ⟨"a", "$in", .list [.int (-7), .bool true], .oneOf,
      ⟨_, ⟨.here List.mem_cons_self, by decide⟩, List.mem_cons_self⟩, by decide, by decide⟩
  refine ⟨sql, hsql, hstand _ hseven, hliterals.mpr ?_⟩
  rintro n ⟨field, key, v, op, ⟨w, ⟨hmember, -⟩, hcondition⟩, hop, hn⟩
  obtain ⟨rfl, rfl⟩ := hmember.eq_of_singleton (by decide)
  have hcases : (key = "$in" ∧ v = .list [.int (-7), .bool true]) ∨
      (key = "$mod" ∧ v = .list [.int 3]) := by
    simpa [conditionsOf] using hcondition
  rcases hcases with ⟨rfl, rfl⟩ | ⟨rfl, rfl⟩
  · obtain rfl : op = .oneOf := Option.some.inj (hop.symm.trans (by decide))
    obtain rfl | rfl : n = .int (-7) ∨ n = .int 1 := by
      simpa [bareNumbers, hasBareNumbers, d, Value.items?, Value.numeric?, Value.number?] using hn
    · rfl
    · rfl
  · obtain rfl : op = .mod := Option.some.inj (hop.symm.trans (by decide))
    obtain rfl | rfl : n = .int 3 ∨ n = .int 0 := by
      simpa [bareNumbers, divisionOf, Value.items?, Value.number?, Number.isZero] using hn
    · rfl
    · rfl

/-- A number that is not finite stands in the SQL as a word. -/
theorem not_expression_numbers_infinite :
    ¬ ∀ (d : Dialect) (criteria : Value) (sql : Sql), d.expression criteria = .ok (some sql) →
      ∀ t, .number t ∈ sql → IsNumericLiteral t := by
  intro h
  have hsql : ∃ sql, expression ⟨.sqlite, fun t => .ok (doubleQuoted t)⟩
      (.object [("a", .float (.infinite false))]) = .ok (some sql) ∧ .number "inf" ∈ sql :=
    ⟨_, rfl, by decide⟩
  obtain ⟨sql, hsql, hinf⟩ := hsql
  have hdigit := (h _ _ sql hsql "inf" hinf).any_find?
  revert hdigit
  decide

end DocStore.Dialect
