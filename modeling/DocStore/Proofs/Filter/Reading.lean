import DocStore.Proofs.Dialect.Operator
import DocStore.Proofs.Filter.Compile

/-!
Reading the SQL of a filter. What the database reads by its precedence is what
the filter asks: parentheses stand wherever they are needed, and no condition
of an operator falls apart between the others.
-/

namespace DocStore

open Formula

/-- The formula of a row of pieces. -/
def Sql.formula (x : Lexis) (s : Sql) : Formula (List Token) := read (s.tokens x)

/-- Tokens that are one operand, and the formula of the leaves that they were made from. -/
structure IsOperand (x : Lexis) (P : Sql → Prop) (ts : List Token) (f : Formula Sql) : Prop where
  nest : Token.nest true 0 ts = some 0
  read : Formula.read ts = f.bind (Sql.formula x)
  atoms : ∀ s ∈ f.atoms, P s

/-- Operands with a keyword between them are read as one formula. -/
theorem read_operands {x : Lexis} {P : Sql → Prop} (g : Glue)
    {ps : List (List Token × Formula Sql)} (hne : ps ≠ [])
    (h : ∀ p ∈ ps, IsOperand x P p.1 p.2) :
    ∃ f : Formula Sql, Formula.read (joined g (ps.map Prod.fst)) = f.bind (Sql.formula x) ∧
      (∀ s ∈ f.atoms, P s) ∧ ∀ v, f.eval v = g.truth (ps.map fun p => p.2.eval v) := by
  induction ps with
  | nil => exact absurd rfl hne
  | cons p ps ih =>
    obtain ⟨hp, hps⟩ := List.forall_mem_cons.mp h
    cases ps with
    | nil =>
      refine ⟨p.2, ?_, hp.atoms, fun v => ?_⟩
      · rw [List.map_singleton, joined_singleton, hp.read]
      · simp [Glue.both_neutral]
    | cons q ps =>
      obtain ⟨f, hread, hatoms, heval⟩ := ih (by simp) hps
      have hnest : ∀ ts ∈ (p :: q :: ps).map Prod.fst, Token.nest true 0 ts = some 0 := by
        intro ts hts
        obtain ⟨r, hr, rfl⟩ := List.mem_map.mp hts
        exact (h r hr).nest
      refine ⟨.join g p.2 f, ?_, ?_, fun v => ?_⟩
      · simp only [List.map_cons] at hnest hread ⊢
        rw [read_joined g hnest, hp.read, hread]
        rfl
      · intro s hs
        obtain hs | hs := List.mem_append.mp hs
        · exact hp.atoms s hs
        · exact hatoms s hs
      · rw [List.map_cons, Glue.truth_cons, ← heval]
        rfl

namespace Sql

variable (e : Engine) (a : Bool)

theorem tokens_word (g : Glue) : tokens (e.lexisWith a) [.code g.word] = [g.token] := by
  cases e <;> cases g <;> rfl

theorem tokens_grouped (s : Sql) :
    tokens (e.lexisWith a) ("(" ++ s ++ ")") = grouped (s.tokens (e.lexisWith a)) := by
  have hopen : tokens (e.lexisWith a) (code "(") = [.sign '('] := by cases e <;> rfl
  have hclose : tokens (e.lexisWith a) (code ")") = [.sign ')'] := by cases e <;> rfl
  simp [hopen, hclose, grouped]

theorem tokens_negation (s : Sql) :
    tokens (e.lexisWith a) ("NOT (" ++ s ++ ")") =
      .word "NOT" :: grouped (s.tokens (e.lexisWith a)) := by
  have hopen : tokens (e.lexisWith a) (code "NOT (") = [.word "NOT", .sign '('] := by
    cases e <;> rfl
  have hclose : tokens (e.lexisWith a) (code ")") = [.sign ')'] := by cases e <;> rfl
  simp [hopen, hclose, grouped]

theorem tokens_join (g : Glue) {parts : List Sql} (hne : parts ≠ []) :
    tokens (e.lexisWith a) (join g.word parts) =
      joined g (parts.map (tokens (e.lexisWith a))) := by
  induction parts with
  | nil => exact absurd rfl hne
  | cons s parts ih =>
    cases parts with
    | nil => simp [join, List.intercalate, joined_singleton]
    | cons t parts =>
      have hrest := ih (by simp)
      rw [join_cons_cons, tokens_append, ← List.singleton_append, tokens_append, tokens_word, hrest]
      simp only [List.map_cons, joined_cons_cons, List.singleton_append]

end Sql

namespace Condition

variable {e : Engine} {a : Bool} {P : Sql → Prop}

/-- The SQL of a condition is a conjunction of operands, which are true as the condition is. -/
structure IsRead (x : Lexis) (P : Sql → Prop) (c : Condition)
    (ps : List (List Token × Formula Sql)) : Prop where
  ne_nil : ps ≠ []
  tokens : c.sql.tokens x = joined .and (ps.map Prod.fst)
  operands : ∀ p ∈ ps, IsOperand x P p.1 p.2
  truth : ∀ v : Text → Truth,
    c.truth v = Glue.and.truth (ps.map fun p => p.2.eval fun s => v s.render)

/-- A condition that is read is read as one formula. -/
theorem IsRead.formula {x : Lexis} {c : Condition} {ps : List (List Token × Formula Sql)}
    (h : c.IsRead x P ps) :
    ∃ f : Formula Sql, c.sql.formula x = f.bind (Sql.formula x) ∧ (∀ s ∈ f.atoms, P s) ∧
      ∀ v : Text → Truth, c.truth v = f.eval fun s => v s.render := by
  obtain ⟨f, hread, hatoms, heval⟩ := read_operands .and h.ne_nil h.operands
  refine ⟨f, ?_, hatoms, fun v => ?_⟩
  · rw [Sql.formula, h.tokens, hread]
  · rw [h.truth, heval]

theorem IsRead.nest {x : Lexis} {c : Condition} {ps : List (List Token × Formula Sql)}
    (h : c.IsRead x P ps) : Token.nest false 0 (c.sql.tokens x) = some 0 := by
  rw [h.tokens]
  refine nest_joined .and fun ts hts => ?_
  obtain ⟨p, hp, rfl⟩ := List.mem_map.mp hts
  exact (h.operands p hp).nest

/-- A single operand is a conjunction of one. -/
theorem isRead_singleton {x : Lexis} {c : Condition} {f : Formula Sql}
    (h : IsOperand x P (c.sql.tokens x) f)
    (htruth : ∀ v : Text → Truth, c.truth v = f.eval fun s => v s.render) :
    c.IsRead x P [(c.sql.tokens x, f)] where
  ne_nil := by simp
  tokens := (joined_singleton .and _).symm
  operands := by simpa using h
  truth v := by simp [htruth, Glue.both_neutral]

/-- A condition in parentheses is one operand. -/
theorem IsRead.grouped {c : Condition} {ps : List (List Token × Formula Sql)}
    (h : c.IsRead (e.lexisWith a) P ps) :
    ∃ f : Formula Sql, IsOperand (e.lexisWith a) P (Formula.grouped (c.sql.tokens (e.lexisWith a))) f ∧
      ∀ v : Text → Truth, c.truth v = f.eval fun s => v s.render := by
  obtain ⟨f, hread, hatoms, heval⟩ := h.formula
  exact ⟨f, ⟨nest_grouped h.nest, (read_grouped h.nest).trans hread, hatoms⟩, heval⟩

/-- The conjuncts of conjunctions are conjuncts of their conjunction. -/
theorem exists_operands {parts : List Condition} (hne : parts ≠ [])
    (h : ∀ c ∈ parts, ∃ ps, c.IsRead (e.lexisWith a) P ps) :
    ∃ ps : List (List Token × Formula Sql), ps ≠ [] ∧
      joined .and (parts.map fun c => c.sql.tokens (e.lexisWith a)) = joined .and (ps.map Prod.fst) ∧
      (∀ p ∈ ps, IsOperand (e.lexisWith a) P p.1 p.2) ∧
      ∀ v : Text → Truth, Glue.and.truth (parts.map (truth v)) =
        Glue.and.truth (ps.map fun p => p.2.eval fun s => v s.render) := by
  induction parts with
  | nil => exact absurd rfl hne
  | cons c parts ih =>
    obtain ⟨hc, hparts⟩ := List.forall_mem_cons.mp h
    obtain ⟨ps, hps⟩ := hc
    cases parts with
    | nil =>
      refine ⟨ps, hps.ne_nil, ?_, hps.operands, fun v => ?_⟩
      · rw [List.map_singleton, joined_singleton, hps.tokens]
      · simp [Glue.both_neutral, hps.truth]
    | cons c' parts =>
      obtain ⟨qs, hqs, htokens, hoperands, htruth⟩ := ih (by simp) hparts
      refine ⟨ps ++ qs, by simp [hqs], ?_, ?_, fun v => ?_⟩
      · simp only [List.map_cons] at htokens ⊢
        rw [joined_cons_cons, htokens, hps.tokens, List.map_append,
          joined_append .and (by simpa using hps.ne_nil) (by simpa using hqs)]
      · intro p hp
        obtain hp | hp := List.mem_append.mp hp
        · exact hps.operands p hp
        · exact hoperands p hp
      · rw [List.map_cons, Glue.truth_cons, htruth, hps.truth, List.map_append, Glue.truth_append]

/-- Clauses in parentheses are operands. -/
theorem exists_grouped {parts : List Condition}
    (h : ∀ c ∈ parts, ∃ ps, c.IsRead (e.lexisWith a) P ps) :
    ∃ ps : List (List Token × Formula Sql),
      ps.map Prod.fst = parts.map (fun c => Formula.grouped (c.sql.tokens (e.lexisWith a))) ∧
      (∀ p ∈ ps, IsOperand (e.lexisWith a) P p.1 p.2) ∧
      ∀ v : Text → Truth, parts.map (truth v) = ps.map fun p => p.2.eval fun s => v s.render := by
  induction parts with
  | nil => exact ⟨[], rfl, by simp, fun v => rfl⟩
  | cons c parts ih =>
    obtain ⟨⟨ps, hps⟩, hparts⟩ := List.forall_mem_cons.mp h
    obtain ⟨f, hoperand, htruth⟩ := hps.grouped
    obtain ⟨qs, htokens, hoperands, htruths⟩ := ih hparts
    refine ⟨(_, f) :: qs, by rw [List.map_cons, htokens]; rfl, ?_, fun v => ?_⟩
    · exact List.forall_mem_cons.mpr ⟨hoperand, hoperands⟩
    · rw [List.map_cons, List.map_cons, htruths, htruth]

/-- Every condition whose leaves are units is read as the conjunction of its operands. -/
theorem exists_isRead (hP : ∀ s, P s → s.IsUnit (e.lexisWith a)) {c : Condition}
    (h : c.IsMadeOf P) : ∃ ps, c.IsRead (e.lexisWith a) P ps := by
  induction h with
  | @leaf s hs =>
    obtain ⟨-, hnest⟩ := (hP s hs).toIsBalanced.lex
    refine ⟨_, isRead_singleton (f := .atom s) ⟨hnest, rfl, ?_⟩ fun v => rfl⟩
    simpa [Formula.atoms] using hs
  | @all parts hne _ ih =>
    obtain ⟨ps, hps, htokens, hoperands, htruth⟩ := exists_operands hne ih
    refine ⟨ps, hps, ?_, hoperands, fun v => ?_⟩
    · rw [← htokens, sql, sqlParts_eq]
      exact (Sql.tokens_join e a .and (by simpa using hne)).trans (by rw [List.map_map]; rfl)
    · rw [truth, truths_eq, htruth]
  | @clauses g parts hne _ ih =>
    obtain ⟨ps, htokens, hoperands, htruth⟩ := exists_grouped ih
    have hne' : ps ≠ [] := by
      rintro rfl
      simp_all
    obtain ⟨f, hread, hatoms, heval⟩ := read_operands g hne' hoperands
    have hnest : Token.nest false 0 (joined g (ps.map Prod.fst)) = some 0 := by
      refine nest_joined g fun ts hts => ?_
      obtain ⟨p, hp, rfl⟩ := List.mem_map.mp hts
      exact (hoperands p hp).nest
    have hsql : (Condition.clauses g parts).sql.tokens (e.lexisWith a) =
        Formula.grouped (joined g (ps.map Prod.fst)) := by
      rw [sql, Sql.tokens_grouped, sqlClauses_eq, Sql.tokens_join e a g (by simpa using hne),
        htokens, List.map_map]
      congr 2
      exact List.map_congr_left fun c _ => Sql.tokens_grouped e a c.sql
    refine ⟨_, isRead_singleton (f := f) ⟨?_, ?_, hatoms⟩ fun v => ?_⟩
    · rw [hsql]
      exact nest_grouped hnest
    · rw [hsql, read_grouped hnest, hread]
    · rw [truth, truths_eq, htruth, heval]
  | @negation part _ ih =>
    obtain ⟨ps, hps⟩ := ih
    obtain ⟨f, hoperand, htruth⟩ := hps.grouped
    have hsql : (Condition.negation part).sql.tokens (e.lexisWith a) = _ :=
      Sql.tokens_negation e a part.sql
    refine ⟨_, isRead_singleton (f := .not f) ⟨?_, ?_, hoperand.atoms⟩ fun v => ?_⟩
    · rw [hsql]
      exact hoperand.nest
    · rw [hsql, read_negation hoperand.nest, hoperand.read]
      rfl
    · rw [truth, htruth]
      rfl

/-- The SQL of a condition whose leaves are units is balanced. -/
theorem isBalanced_sql (hP : ∀ s, P s → s.IsUnit (e.lexisWith a)) {c : Condition}
    (h : c.IsMadeOf P) : c.sql.IsBalanced (e.lexisWith a) false := by
  induction h with
  | leaf hs => exact (hP _ hs).loosen
  | all _ _ ih =>
    rw [sql, sqlParts_eq]
    refine .join (Sql.walkCode_glue e a .and) fun s hs => ?_
    obtain ⟨c, hc, rfl⟩ := List.mem_map.mp hs
    exact ih c hc
  | clauses g _ _ ih =>
    rw [sql, sqlClauses_eq]
    refine (Sql.IsBalanced.join (Sql.walkCode_glue e a g) fun s hs => ?_).grouped.loosen
    obtain ⟨c, hc, rfl⟩ := List.mem_map.mp hs
    exact (ih c hc).grouped.loosen
  | negation _ ih => exact ih.negated.loosen

end Condition

/-- What is balanced is read to its end, as the formula of its pieces. -/
theorem Sql.IsBalanced.ofText {x : Lexis} {b : Bool} {s : Sql} (h : s.IsBalanced x b) :
    Formula.ofText x s.render = some (s.formula x) := by
  obtain ⟨hlex, hnest⟩ := h.loosen.lex
  simp [Formula.ofText, hlex, hnest, Sql.formula]

theorem Dialect.Makes.isUnit {d : Dialect} {b : Bool} (hd : d.QuotedBy b) {s : Sql}
    (h : d.Makes s) : s.IsUnit (d.engine.lexisWith b) := by
  obtain ⟨op, field, v, h⟩ := h
  have htwins := Dialect.operator_units hd op field field (.same v) fun _ => rfl
  cases htwins _ _ h h with
  | some htwins => exact htwins.left

/-- The text of a filter has the structure of the filter. By its precedence it is read as a formula
over texts that operators make, each of them read by itself; whatever the truth of these, the formula
is as true as the filter, and there is no text exactly when the filter asks for nothing. -/
theorem Dialect.expression_isRead {d : Dialect} {b : Bool} (hd : d.QuotedBy b) {ms : Members}
    {r : Option Sql} (h : d.expression (.object ms) = .ok r) :
    (∀ v : Text → Truth, r = none ↔ Filter.truth (d.ask v) (.object ms) = none) ∧
      ∀ sql, r = some sql →
        ∃ (tree : Formula Sql) (reading : Sql → Formula (List Token)),
          (∀ s ∈ tree.atoms, d.Makes s ∧
            Formula.ofText (d.engine.lexisWith b) s.render = some (reading s)) ∧
          Formula.ofText (d.engine.lexisWith b) sql.render = some (tree.bind reading) ∧
          ∀ v : Text → Truth, Filter.truth (d.ask v) (.object ms) =
            some (tree.eval fun s => v s.render) := by
  obtain ⟨c, hc, h⟩ := exists_of_bind_ok h
  cases h
  have hanswers := condition_answers hc
  have hunit : ∀ s, d.Makes s → s.IsUnit (d.engine.lexisWith b) := fun s hs => hs.isUnit hd
  constructor
  · intro v
    rw [hanswers.truth]
    cases c <;> simp
  · intro sql hsql
    obtain ⟨c, rfl, rfl⟩ := Option.map_eq_some_iff.mp hsql
    have hmade := hanswers.made c rfl
    obtain ⟨ps, hread⟩ := Condition.exists_isRead hunit hmade
    obtain ⟨tree, hformula, hatoms, htruth⟩ := hread.formula
    refine ⟨tree, Sql.formula (d.engine.lexisWith b), fun s hs => ⟨hatoms s hs, ?_⟩, ?_, fun v => ?_⟩
    · exact (hunit s (hatoms s hs)).toIsBalanced.ofText
    · rw [(Condition.isBalanced_sql hunit hmade).ofText, hformula]
    · rw [hanswers.truth, ← htruth]
      rfl

/-- A negation beside clauses, one of which asks for nothing and one of which compares with a text
that looks like SQL. -/
def Filter.nested : Members :=
  [("$or", .list [.object [("a", .object [("$gt", .str "x' OR '1")])], .object [],
      .object [("$and", .tuple [.object [("b", .null), ("c", .int 2)]])]]),
    ("d", .object [("$not", .object [("$size", .int 3), ("$lt", .float (.zero true))])])]

theorem Dialect.expression_isRead_nested :
    ∃ sql, (native .mysql).expression (.object Filter.nested) = .ok (some sql) ∧
      ∃ (tree : Formula Sql) (reading : Sql → Formula (List Token)),
        Formula.ofText (Engine.mysql.lexisWith true) sql.render = some (tree.bind reading) ∧
        ∀ v : Text → Truth, Filter.truth ((native .mysql).ask v) (.object Filter.nested) =
          some (tree.eval fun s => v s.render) := by
  have hexpression : ∃ sql, (native .mysql).expression (.object Filter.nested) = .ok (some sql) :=
    ⟨_, rfl⟩
  obtain ⟨sql, hsql⟩ := hexpression
  obtain ⟨tree, reading, -, hread, htruth⟩ :=
    (expression_isRead (native_quotedBy .mysql) hsql).2 sql rfl
  exact ⟨sql, hsql, tree, reading, hread, htruth⟩

end DocStore
