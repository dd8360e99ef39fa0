import DocStore.Dialect.Schema
import DocStore.Filter.Compile
import DocStore.Store.Write

/-!
What a dialect asks of its connection. A dialect asks it to quote texts, and
passes on the first refusal that it meets: where some texts are refused, what is
put together is refused for the same reason, or none of those texts was quoted
and it comes out as where they are quoted. Nothing that is put together blames a
statement unless the connection does.
-/

namespace DocStore

/-- Whether a fault blames a statement. -/
def Fault.isStatement : Fault → Bool
  | .statement _ => true
  | _ => false

/-- How a connection quotes texts. -/
abbrev Quoting := Text → Except Fault Text

/-- A quoting that never blames a statement. -/
def Quoting.Clean (q : Quoting) : Prop := ∀ t fault, q t = .error fault → fault.isStatement = false

/-- One quoting is another one that refuses some texts more, all with one fault. -/
def Quoting.Refuses (q q' : Quoting) (fault : Fault) : Prop := ∀ t, q t = q' t ∨ q t = .error fault

/-- A computation meets a quoting only by asking it, and passes on what it is refused. -/
structure Consults {α : Type} (f : Quoting → Except Fault α) : Prop where
  refused {fault : Fault} {q q' : Quoting} (hq : q.Refuses q' fault) :
    f q = .error fault ∨ f q = f q'
  clean {q : Quoting} (hq : q.Clean) {fault : Fault} (h : f q = .error fault) :
    fault.isStatement = false

namespace Consults

variable {α β γ : Type} {f : Quoting → Except Fault α}

theorem const {e : Except Fault α} (h : ∀ fault, e = .error fault → fault.isStatement = false) :
    Consults fun _ => e where
  refused _ := .inr rfl
  clean _ _ hfault := h _ hfault

theorem pure (a : α) : Consults fun _ => Pure.pure a := const nofun

/-- What is put together at the end does not meet the quoting any more. -/
theorem ended {g : Quoting → α} (h : ∀ q q', g q = g q') :
    Consults fun q => (Pure.pure (g q) : Except Fault α) where
  refused _ := .inr (congrArg Except.ok (h _ _))
  clean _ _ hfault := nomatch hfault

/-- What is asked is whether this one text is quoted. -/
theorem quote (t : Text) : Consults fun q => q t where
  refused hq := (hq t).symm
  clean hq _ h := hq t _ h

theorem ok (a : α) : Consults fun _ => .ok a := const nofun

theorem error {fault : Fault} (h : fault.isStatement = false) :
    Consults fun _ => (.error fault : Except Fault α) := by
  refine const ?_
  rintro _ ⟨⟩
  exact h

theorem bind {g : α → Quoting → Except Fault β} (hf : Consults f) (hg : ∀ a, Consults (g a)) :
    Consults fun q => f q >>= fun a => g a q where
  refused {fault q q'} hq := by
    rcases hf.refused hq with h | h
    · left
      rw [h]
      rfl
    · rw [h]
      cases f q' with
      | error => exact .inr rfl
      | ok a => exact (hg a).refused hq
  clean {q} hq fault h := by
    cases hfq : f q with
    | error fault' =>
      rw [hfq] at h
      cases h
      exact hf.clean hq hfq
    | ok a =>
      rw [hfq] at h
      exact (hg a).clean hq h

theorem map (g : α → β) (hf : Consults f) : Consults fun q => g <$> f q :=
  hf.bind fun a => pure (g a)

theorem mapM {f : γ → Quoting → Except Fault α} (cs : List γ) (h : ∀ c, Consults (f c)) :
    Consults fun q => cs.mapM fun c => f c q := by
  induction cs with
  | nil => exact pure []
  | cons c cs ih =>
    simp only [List.mapM_cons]
    exact (h c).bind fun a => ih.bind fun as => pure (a :: as)

end Consults

namespace Dialect

variable (e : Engine)

theorem consults_quoted (t : Text) : Consults fun q => (⟨e, q⟩ : Dialect).quoted t :=
  (Consults.quote t).bind fun _ => .pure _

theorem consults_textLiteral (t : Text) : Consults fun q => (⟨e, q⟩ : Dialect).textLiteral t := by
  unfold textLiteral
  split
  · exact consults_quoted e t
  · exact .error rfl

theorem consults_numberLiteral (n : Number) :
    Consults fun q => (⟨e, q⟩ : Dialect).numberLiteral n := by
  cases e with
  | mysql | pgsql => exact consults_quoted _ _
  | sqlite => exact .ok _

theorem consults_truthLiteral (b : Bool) : Consults fun q => (⟨e, q⟩ : Dialect).truthLiteral b := by
  cases e with
  | mysql | pgsql => exact consults_quoted _ _
  | sqlite => exact .ok _

theorem consults_literal (v : Value) : Consults fun q => (⟨e, q⟩ : Dialect).literal v := by
  cases v with
  | null => exact .ok _
  | bool b => exact consults_truthLiteral e b
  | int n => exact consults_numberLiteral e _
  | float x => exact consults_numberLiteral e _
  | str t => exact consults_textLiteral e t
  | _ => exact .error rfl

theorem consults_literals (vs : List Value) : Consults fun q => (⟨e, q⟩ : Dialect).literals vs :=
  (Consults.mapM vs (consults_literal e)).bind fun _ => .pure _

theorem consults_identifier (name : Text) :
    Consults fun q => (⟨e, q⟩ : Dialect).identifier name := by
  unfold identifier
  dsimp only
  split
  · exact .ok _
  · exact .error rfl

theorem consults_pathLiteral (field : Text) :
    Consults fun q => (⟨e, q⟩ : Dialect).pathLiteral field := by
  unfold pathLiteral
  dsimp only
  split
  · exact consults_quoted e _
  · exact .error rfl

theorem consults_selector (field : Text) (asText : Bool) :
    Consults fun q => (⟨e, q⟩ : Dialect).selector field asText := by
  refine (consults_pathLiteral e field).bind fun path => ?_
  cases e <;> exact .ended fun _ _ => rfl

theorem consults_numericSelector (field : Text) :
    Consults fun q => (⟨e, q⟩ : Dialect).numericSelector field := by
  have hselector := consults_selector e field
  cases e with
  | mysql => exact (hselector true).bind fun _ => .pure _
  | pgsql => exact (hselector false).bind fun _ => (hselector true).bind fun _ => .pure _
  | sqlite => exact hselector true

/-! ### Operators -/

theorem consults_jsonLiteral (v : Value) : Consults fun q => (⟨e, q⟩ : Dialect).jsonLiteral v := by
  unfold jsonLiteral
  split
  · exact consults_quoted e _
  · exact .error rfl

theorem consults_jsonValue (v : Value) : Consults fun q => (⟨e, q⟩ : Dialect).jsonValue v := by
  unfold jsonValue
  split
  · exact (consults_textLiteral e _).bind fun _ => .pure _
  · exact (consults_jsonLiteral e _).bind fun _ => .pure _

theorem consults_has (field : Text) (v : Value) :
    Consults fun q => (⟨e, q⟩ : Dialect).has field v := by
  have hselector := consults_selector e field false
  cases e with
  | mysql => exact hselector.bind fun _ => (consults_jsonValue .mysql v).bind fun _ => .pure _
  | pgsql =>
    refine hselector.bind fun target => ?_
    split
    · exact (consults_textLiteral .pgsql _).bind fun _ => .pure _
    · exact (consults_jsonLiteral .pgsql _).bind fun _ => .pure _
  | sqlite =>
    exact (consults_pathLiteral .sqlite field).bind fun _ =>
      (consults_literal .sqlite v).bind fun _ => .ended fun _ _ => rfl

theorem consults_hasAll (field : Text) (vs : List Value) :
    Consults fun q => (⟨e, q⟩ : Dialect).hasAll field vs := by
  have hselector := consults_selector e field false
  cases e with
  | mysql =>
    exact hselector.bind fun _ => (Consults.mapM vs (consults_jsonValue .mysql)).bind fun _ => .pure _
  | pgsql =>
    refine hselector.bind fun target => ?_
    split
    · exact (consults_literals .pgsql vs).bind fun _ => .pure _
    · exact (consults_jsonLiteral .pgsql _).bind fun _ => .pure _
  | sqlite => exact (Consults.mapM vs (consults_has .sqlite field)).bind fun _ => .pure _

theorem consults_matchesPattern (selector : Sql) (pattern : Text) :
    Consults fun q => (⟨e, q⟩ : Dialect).matchesPattern selector pattern := by
  refine (consults_textLiteral e pattern).bind fun literal => ?_
  cases e <;> exact .pure _

theorem consults_hasSize (field : Text) (size : Nat) :
    Consults fun q => (⟨e, q⟩ : Dialect).hasSize field size := by
  cases e with
  | mysql | pgsql => exact (consults_selector _ field false).bind fun _ => .pure _
  | sqlite => exact (consults_pathLiteral _ field).bind fun _ => .ended fun _ _ => rfl

theorem consults_leaves (field : Text) (divisor remainder : Number) :
    Consults fun q => (⟨e, q⟩ : Dialect).leaves field divisor remainder := by
  cases e with
  | mysql | pgsql => exact (consults_numericSelector _ field).bind fun _ => .pure _
  | sqlite => exact (consults_selector _ field true).bind fun _ => .pure _

theorem consults_compares (op : Operator) (field : Text) (selector : Sql) (v : Value) :
    Consults fun q => (⟨e, q⟩ : Dialect).compares op field selector v := by
  unfold compares
  split
  · exact .error rfl
  · dsimp only
    split
    · exact (consults_numericSelector e field).bind fun _ =>
        (consults_literal e v).bind fun _ => .pure _
    · exact (consults_literal e v).bind fun _ => .pure _

theorem consults_among (op : Operator) (selector : Sql) (v : Value) :
    Consults fun q => (⟨e, q⟩ : Dialect).among op selector v := by
  unfold among
  split
  · exact .error rfl
  · exact .ok _
  · exact (consults_literals e _).bind fun _ => .pure _

theorem consults_operator (op : Operator) (field : Text) (v : Value) :
    Consults fun q => (⟨e, q⟩ : Dialect).operator op field v := by
  refine (consults_selector e field true).bind fun selector => ?_
  cases op with
  | eq | ne =>
    dsimp only
    split
    · exact .pure _
    · exact (consults_literal e v).bind fun _ => .pure _
  | gt | gte | lt | lte => exact (consults_compares e _ field selector v).map _
  | oneOf | noneOf => exact (consults_among e _ selector v).map _
  | has =>
    dsimp only
    split
    · exact .error rfl
    · exact (consults_has e field v).map _
  | all =>
    dsimp only
    split
    · exact .error rfl
    · exact .pure _
    · exact (consults_hasAll e field _).map _
  | regex =>
    dsimp only
    split
    · exact .error rfl
    · exact (consults_matchesPattern e selector _).map _
  | size =>
    dsimp only
    split
    · exact (consults_hasSize e field _).map _
    · exact .error rfl
  | mod =>
    dsimp only
    split
    · exact .error rfl
    · exact (consults_leaves e field _ _).map _
  | present => exact .pure _
  | text =>
    dsimp only
    split
    · exact (consults_textLiteral e _).bind fun _ => .ended fun _ _ => rfl
    · exact .error rfl
  | options => exact .pure _
  | func | fuzzy =>
    show Consults fun _ => (.error (.filter (.noSql _ e)) : Except Fault (Option Sql))
    exact .error rfl

/-! ### Filters and orders -/

theorem consults_fieldConditions (name : Text) (conditions : Members) :
    Consults fun q => (⟨e, q⟩ : Dialect).fieldConditions name conditions := by
  have hcondition (m : Text × Value) :
      Consults fun q => (⟨e, q⟩ : Dialect).fieldCondition name m.1 m.2 := by
    unfold fieldCondition
    split
    · exact .error rfl
    · split
      · exact .error rfl
      · exact (consults_operator e _ name m.2).bind fun _ => .pure _
  exact (Consults.mapM conditions hcondition).bind fun _ => .pure _

theorem consults_field (name : Text) (v : Value) :
    Consults fun q => (⟨e, q⟩ : Dialect).field name v := by
  unfold field
  split
  · split
    · exact (consults_fieldConditions e name _).bind fun _ => .pure _
    · exact consults_fieldConditions e name _
  · exact consults_fieldConditions e name _
  · exact consults_fieldConditions e name _
  · exact consults_fieldConditions e name _

mutual

theorem consults_filter (v : Value) : Consults fun q => (⟨e, q⟩ : Dialect).filter v := by
  match v with
  | .object ms =>
    simp only [filter]
    exact (consults_filterMembers ms).bind fun _ => .pure _
  | .null | .bool _ | .int _ | .float _ | .str _ | .list _ | .tuple _ | .bytes _ | .pattern _
  | .test _ =>
    simp only [filter]
    exact .error rfl

theorem consults_filterMembers (ms : List (Text × Value)) :
    Consults fun q => (⟨e, q⟩ : Dialect).filterMembers ms := by
  match ms with
  | [] =>
    simp only [filterMembers]
    exact .ok _
  | (key, v) :: ms =>
    simp only [filterMembers]
    exact (consults_filterMember key v).bind fun _ =>
      (consults_filterMembers ms).bind fun _ => .pure _

theorem consults_filterMember (key : Text) (v : Value) :
    Consults fun q => (⟨e, q⟩ : Dialect).filterMember key v := by
  match v with
  | .list vs | .tuple vs =>
    simp only [filterMember]
    split
    · exact (consults_filterClauses vs).bind fun _ => .pure _
    · exact consults_field e key _
  | .null | .bool _ | .int _ | .float _ | .str _ | .object _ | .bytes _ | .pattern _ | .test _ =>
    simp only [filterMember]
    split
    · exact .error rfl
    · exact consults_field e key _

theorem consults_filterClauses (vs : List Value) :
    Consults fun q => (⟨e, q⟩ : Dialect).filterClauses vs := by
  match vs with
  | [] =>
    simp only [filterClauses]
    exact .ok _
  | v :: vs =>
    simp only [filterClauses]
    exact (consults_filter v).bind fun _ => (consults_filterClauses vs).bind fun _ => .pure _

end

theorem consults_whereClause (v : Value) :
    Consults fun q => (⟨e, q⟩ : Dialect).whereClause v := by
  have hcondition : Consults fun q => (⟨e, q⟩ : Dialect).condition v := by
    unfold condition
    split
    · exact consults_filter e v
    · exact .ok _
  have hexpression : Consults fun q => (⟨e, q⟩ : Dialect).expression v :=
    hcondition.bind fun _ => .pure _
  exact hexpression.bind fun _ => .pure _

theorem consults_orderClause (v : Value) :
    Consults fun q => (⟨e, q⟩ : Dialect).orderClause v := by
  have hitem (m : Text × Value) : Consults fun q => (⟨e, q⟩ : Dialect).sortItem m.1 m.2 := by
    refine (consults_selector e m.1 false).bind fun selector => ?_
    have hdirection : Consults fun _ => direction m.1 m.2 := by
      unfold direction
      dsimp only
      split
      · exact .ok _
      · split
        · exact .error rfl
        · exact .error rfl
    exact hdirection.bind fun _ => .pure _
  unfold orderClause
  split
  · exact .ok _
  · split
    · exact (Consults.mapM _ hitem).bind fun _ => .pure _
    · exact .error rfl

/-! ### Tables and documents -/

theorem consults_createStatements (table : Text) :
    Consults fun q => (⟨e, q⟩ : Dialect).createStatements table := by
  have hname := consults_identifier e table
  have hindex := consults_identifier e (indexName table)
  cases e with
  | mysql =>
    exact (consults_pathLiteral .mysql _).bind fun _ => hname.bind fun _ => .ended fun _ _ => rfl
  | pgsql =>
    exact hname.bind fun _ => hindex.bind fun _ =>
      (consults_quoted .pgsql _).bind fun _ => .ended fun _ _ => rfl
  | sqlite =>
    exact hname.bind fun _ => hindex.bind fun _ =>
      (consults_selector .sqlite _ true).bind fun _ => .ended fun _ _ => rfl

theorem consults_tableExists (table : Text) :
    Consults fun q => (⟨e, q⟩ : Dialect).tableExists table := by
  refine (consults_textLiteral e table).bind fun literal => ?_
  cases e <;> exact .pure _

theorem consults_dropStatement (table : Text) :
    Consults fun q => (⟨e, q⟩ : Dialect).dropStatement table :=
  (consults_identifier e table).bind fun _ => .pure _

theorem consults_document (ms : Members) : Consults fun q => (⟨e, q⟩ : Dialect).document ms := by
  unfold document
  split
  · exact consults_textLiteral e _
  · exact .error rfl

end Dialect

end DocStore
