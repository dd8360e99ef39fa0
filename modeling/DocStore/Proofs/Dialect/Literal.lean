import DocStore.Dialect.Operator
import DocStore.Proofs.Number.Numeral
import DocStore.Proofs.Outcome
import DocStore.Proofs.Sql.Quoted
import DocStore.Proofs.Sql.Twins
import DocStore.Proofs.Value.Alike

/-!
Literals and selectors in every dialect. Whatever the texts are that come from
a caller, a literal or a selector is a unit, and those of values and fields
that differ in their texts only are twins.
-/

namespace DocStore

/-- A dialect whose quoting makes literals, by the rules of its engine with or without escapes.
One engine writes a backslash of its own into literals and can have no escapes. -/
structure Dialect.QuotedBy (d : Dialect) (hasEscapes : Bool) : Prop where
  literal : ∀ {t l : Text}, d.quote t = .ok l →
    ∃ u, (d.engine.lexisWith hasEscapes).lex l = some [.literal u]
  plain : d.engine = .sqlite → hasEscapes = false

/-- The dialect of an engine that quotes as its open connection does. -/
def Dialect.native (e : Engine) : Dialect where
  engine := e
  quote t :=
    match e.quote t with
    | .ok l => .ok l
    | .error fault => .error (.misuse fault)

theorem Dialect.native_quotedBy (e : Engine) : (native e).QuotedBy e.hasEscapes where
  literal {t l} h := by
    simp only [native] at h
    split at h
    next hl =>
      cases h
      exact ⟨_, Engine.lex_quote hl⟩
    next => cases h
  plain h := by
    obtain rfl : e = .sqlite := h
    rfl

/-- Both computations make units of the same shape, whenever both succeed. -/
abbrev BothUnits (x : Lexis) : Except Fault Sql → Except Fault Sql → Prop :=
  BothYield (Sql.Twins (Sql.IsUnit x))

namespace Sql

variable {x : Lexis}

theorem isUnit_literal {t u : Text} (h : x.lex t = some [.literal u]) : IsUnit x [.literal t] :=
  ⟨⟨by simpa [Piece.IsValid] using ⟨u, h⟩, false, rfl⟩, rfl⟩

theorem isUnit_identifier {t u : Text} (h : x.lex t = some [.name u]) : IsUnit x [.identifier t] :=
  ⟨⟨by simpa [Piece.IsValid] using ⟨u, h⟩, false, rfl⟩, rfl⟩

theorem isUnit_number {t : Text} (h : (Piece.number t).IsValid x) : IsUnit x [.number t] :=
  ⟨⟨by simpa using h, false, rfl⟩, rfl⟩

/-- A column of the store is a unit. -/
theorem isUnit_column (e : Engine) (b : Bool) (name : Text) :
    IsUnit (e.lexisWith b) [.identifier (quoteName e.nameMark name)] :=
  isUnit_identifier (e.lex_quoteName b name)

theorem isUnit_display (e : Engine) (b : Bool) (n : Number) :
    IsUnit (e.lexisWith b) [.number n.display] := by
  obtain ⟨cs, hcs, h⟩ := n.isNumeral_display
  exact isUnit_number (h ▸ hcs.isValid e b)

theorem isUnit_ofInt (e : Engine) (b : Bool) (n : Int) :
    IsUnit (e.lexisWith b) [.number (Text.ofInt n)] := by
  obtain ⟨cs, hcs, h⟩ := isNumeral_ofInt n
  exact isUnit_number (h ▸ hcs.isValid e b)

end Sql

namespace Dialect

variable {d : Dialect} {b : Bool} (hd : d.QuotedBy b)

/-- The column of the documents, where a form has a gap. -/
theorem filled_column (d : Dialect) (b : Bool) :
    Sql.Filled (d.engine.lexisWith b) [.literal []] d.documentColumn d.documentColumn :=
  .unit (.same (Sql.isUnit_column d.engine b "document"))

include hd

/-- Any two texts are quoted alike. -/
theorem quoted_units (t u : Text) : BothUnits (d.engine.lexisWith b) (d.quoted t) (d.quoted u) := by
  intro s s' hs hs'
  simp only [quoted] at hs hs'
  cases ht : d.quote t with
  | error fault => rw [ht] at hs; cases hs
  | ok l =>
    cases hu : d.quote u with
    | error fault => rw [hu] at hs'; cases hs'
    | ok l' =>
      rw [ht] at hs
      rw [hu] at hs'
      cases hs
      cases hs'
      obtain ⟨_, hl⟩ := hd.literal ht
      obtain ⟨_, hl'⟩ := hd.literal hu
      exact ⟨Sql.isUnit_literal hl, Sql.isUnit_literal hl', rfl⟩

theorem textLiteral_units (t u : Text) :
    BothUnits (d.engine.lexisWith b) (d.textLiteral t) (d.textLiteral u) := by
  simp only [textLiteral]
  split
  · split
    · exact quoted_units hd t u
    · exact .error_right _ _
  · exact .error_left _ _

theorem numberLiteral_units (n : Number) :
    BothUnits (d.engine.lexisWith b) (d.numberLiteral n) (d.numberLiteral n) := by
  simp only [numberLiteral]
  split
  · exact .pure (.same (Sql.isUnit_display d.engine b n))
  · exact quoted_units hd _ _

theorem truthLiteral_units (c : Bool) :
    BothUnits (d.engine.lexisWith b) (d.truthLiteral c) (d.truthLiteral c) := by
  simp only [truthLiteral]
  split
  · refine .pure (.same ?_)
    cases c
    · exact Sql.isUnit_ofInt d.engine b 0
    · exact Sql.isUnit_ofInt d.engine b 1
  · exact quoted_units hd _ _

/-- The literals of two values that differ in their texts only. -/
theorem literal_units {v w : Value} (h : Value.Alike v w) :
    BothUnits (d.engine.lexisWith b) (d.literal v) (d.literal w) := by
  cases h with
  | same v =>
    cases v with
    | null =>
      refine .pure (.same ((Sql.Fills.code "NULL").isUnit ?_))
      cases d.engine <;> rfl
    | bool c => exact truthLiteral_units hd c
    | int n => exact numberLiteral_units hd _
    | float x => exact numberLiteral_units hd _
    | str t => exact textLiteral_units hd t t
    | _ => exact .error_left _ _
  | str t u => exact textLiteral_units hd t u
  | _ => exact .error_left _ _

/-- The literals of the values of two lists, with commas between them. -/
theorem literals_units {vs ws : List Value} (h : List.Forall₂ Value.Alike vs ws) (hne : vs ≠ []) :
    BothUnits (d.engine.lexisWith b) (d.literals vs) (d.literals ws) := by
  refine (BothYield.mapM h fun v w hvw => literal_units hd hvw).bind fun ss ts ⟨hst, hlength⟩ => ?_
  have hss : ss ≠ [] := by
    rintro rfl
    exact hne (List.length_eq_zero_iff.mp hlength.symm)
  exact .pure (.commas hst hss)

theorem pathLiteral_units (f g : Text) :
    BothUnits (d.engine.lexisWith b) (d.pathLiteral f) (d.pathLiteral g) := by
  simp only [pathLiteral]
  split
  · split
    · exact quoted_units hd _ _
    · exact .error_right _ _
  · exact .error_left _ _

/-- The selectors of any two fields. -/
theorem selector_units (f g : Text) (asText : Bool) :
    BothUnits (d.engine.lexisWith b) (d.selector f asText) (d.selector g asText) := by
  refine (pathLiteral_units hd f g).bind fun s t hst => ?_
  have hcolumn := filled_column d b
  obtain ⟨e, quote⟩ := d
  cases e with
  | mysql =>
    cases asText
    · exact .pure (((hcolumn.append (.code " -> ")).append (.unit hst)).twins rfl)
    · exact .pure (((hcolumn.append (.code " ->> ")).append (.unit hst)).twins rfl)
  | pgsql =>
    cases asText
    · exact .pure (((hcolumn.append (.code " #> ")).append (.unit hst)).twins rfl)
    · exact .pure (((hcolumn.append (.code " #>> ")).append (.unit hst)).twins rfl)
  | sqlite =>
    exact .pure (((((Sql.Filled.code "json_extract(").append hcolumn).append (.code ", ")).append
      (.unit hst)).append (.code ")") |>.twins rfl)

/-- The numeric selectors of any two fields. -/
theorem numericSelector_units (f g : Text) :
    BothUnits (d.engine.lexisWith b) (d.numericSelector f) (d.numericSelector g) := by
  obtain ⟨e, quote⟩ := d
  cases e with
  | mysql =>
    refine (selector_units hd f g true).bind fun s t hst => .pure ?_
    exact ((Sql.Filled.code "CAST(").append (.unit hst)).append
      (.code " AS DECIMAL(65, 30))") |>.twins rfl
  | pgsql =>
    refine (selector_units hd f g false).bind fun s t hst => ?_
    refine (selector_units hd f g true).bind fun s' t' hst' => .pure ?_
    have hnumber : Sql.IsUnit (Engine.pgsql.lexisWith b) (Sql.fixed "number") :=
      Sql.isUnit_literal (u := "number") (by cases b <;> rfl)
    exact ((((((Sql.Filled.code "(CASE WHEN jsonb_typeof(").append (.unit hst)).append
      (.code ") = ")).append (.unit (.same hnumber))).append (.code " THEN (")).append
      (.unit hst')).append (.code ")::numeric END)") |>.twins rfl
  | sqlite => exact selector_units hd f g true

end Dialect

end DocStore
