import DocStore.Proofs.Dialect.Accord
import DocStore.Proofs.Filter.Member
import DocStore.Proofs.Pattern.Delimited
import DocStore.Proofs.Sql.Like
import DocStore.Proofs.Text.Encodable
import DocStore.Sql.Quoting

/-!
Conditions that search a text: for a text inside it, and by a regular expression.
The first compares with a pattern that is made of the argument, the second with
the argument or with what stands in it between slashes; either stands in the SQL
as one literal that the connection quotes.
-/

namespace DocStore

namespace Dialect

/-! ### Texts inside -/

theorem likeEscape_eq (d : Dialect) :
    d.likeEscape = if d.engine = .sqlite then Sql.code " ESCAPE " ++ Sql.fixed "\\" else [] := by
  unfold likeEscape
  cases d.engine <;> rfl

/-- A search for a text compares the field with the pattern of the text, quoted by the connection,
and one engine is told what the escape is. In the pattern no escape is left open, and it is matched
by exactly the texts that include the one that is searched for. -/
theorem operator_searches (d : Dialect) (field : Text) (v : Value) (condition : Option Sql) :
    (d.operator .text field v = .ok condition ↔
        ∃ t selector literal, v = .str t ∧ t.isEncodable = true ∧
          d.selector field true = .ok selector ∧ d.quote (Like.containing t) = .ok literal ∧
          condition = some (selector ++ Sql.code " LIKE " ++ [.literal literal] ++
            if d.engine = .sqlite then Sql.code " ESCAPE " ++ Sql.fixed "\\" else [])) ∧
      ∀ t, Like.containing t =
          "%" ++ ((t.replace '\\' "\\\\").replace '%' "\\%").replace '_' "\\_" ++ "%" ∧
        (∃ signs, Like.signs? (Like.containing t) = some signs) ∧
        ∀ s, Like.Matches (Like.containing t) s ↔ t <:+: s := by
  refine ⟨⟨fun h => ?_, ?_⟩, fun t => ⟨Like.containing_eq_replace t, ⟨_, Like.signs?_containing t⟩,
    Like.matches_containing_iff t⟩⟩
  · obtain ⟨selector, hselector, h⟩ := exists_of_bind_ok h
    cases v with
    | str t =>
      obtain ⟨s, hs, ⟨⟩⟩ := exists_of_bind_ok h
      obtain ⟨ht, literal, hliteral, rfl⟩ := textLiteral_eq_ok_iff.mp hs
      rw [Text.isEncodable_containing] at ht
      exact ⟨t, selector, literal, rfl, ht, hselector, hliteral, by rw [likeEscape_eq]⟩
    | _ => cases h
  · rintro ⟨t, selector, literal, rfl, ht, hselector, hliteral, rfl⟩
    rw [← Text.isEncodable_containing] at ht
    have hs := textLiteral_eq_ok_iff.mpr ⟨ht, literal, hliteral, rfl⟩
    unfold operator
    rw [ok_bind hselector]
    dsimp only
    rw [ok_bind hs, likeEscape_eq]
    rfl

end Dialect

/-! ### Regular expressions -/

namespace Filter

/-- The names of the condition that a field matches a regular expression. -/
def searchNames : List Text := ["$regex", "$match", "$preg"]

/-- What is asked of a field searches it by a regular expression, which is the given argument. -/
inductive Searches : Value → Value → Prop where
  /-- One of the conditions has one of the names. -/
  | named {conditions : Members} {key : Text} {v : Value} (hkey : key ∈ searchNames)
    (h : (key, v) ∈ conditions) : Searches (.object conditions) v
  /-- One of the conditions that are negated has one of the names. -/
  | negated {conditions : Members} {key : Text} {v : Value} (hkey : key ∈ searchNames)
    (h : (key, v) ∈ conditions) : Searches (.object [("$not", .object conditions)]) v
  /-- What is negated is no object of conditions. -/
  | opposite {v : Value} (h : v.members? = none) : Searches (.object [("$not", v)]) v
  /-- There is a compiled expression in the place of conditions. -/
  | compiled (source : Text) : Searches (.pattern source) (.pattern source)

theorem parse?_of_mem_searchNames {key : Text} (h : key ∈ searchNames) :
    Operator.parse? key = some .regex := by
  have hnames : ∀ key ∈ searchNames, Operator.parse? key = some .regex := by decide
  exact hnames key h

/-- However a field is searched, one of the conditions on it is a search. -/
theorem Searches.exists_condition {w v : Value} (h : Searches w v) :
    ∃ key, (key, v) ∈ conditionsOf w ∧ Operator.parse? key = some .regex := by
  cases h with
  | @named conditions key v hkey h =>
    refine ⟨key, ?_, parse?_of_mem_searchNames hkey⟩
    rcases conditions with _ | ⟨⟨k, u⟩, _ | ⟨m, rest⟩⟩
    · cases h
    · cases List.mem_singleton.mp h
      have hnot : key ≠ "$not" := by
        rintro rfl
        revert hkey
        decide
      rw [conditionsOf, if_neg hnot]
      exact h
    · exact h
  | @negated conditions key v hkey h => exact ⟨key, h, parse?_of_mem_searchNames hkey⟩
  | opposite h =>
    refine ⟨Operator.regex.name, ?_, by decide⟩
    cases v with
    | object ms => cases h
    | _ => exact List.mem_singleton_self _
  | compiled source => exact ⟨Operator.regex.name, List.mem_singleton_self _, by decide⟩

end Filter

namespace Dialect

open DocStore.Filter

variable {d : Dialect} {v : Value} {t pattern : Text}

/-- The condition that a field matches the pattern of a literal. -/
def patternTest (engine : Engine) (selector literal : Sql) : Sql :=
  match engine with
  | .mysql => "LOWER(" ++ selector ++ ") REGEXP LOWER(" ++ literal ++ ")"
  | .pgsql => selector ++ " ~* " ++ literal
  | .sqlite => selector ++ " REGEXP " ++ literal

theorem exists_of_matchesPattern {selector s : Sql} (h : d.matchesPattern selector pattern = .ok s) :
    ∃ literal, d.quote pattern = .ok literal ∧
      s = patternTest d.engine selector [.literal literal] := by
  obtain ⟨l, hl, h⟩ := exists_of_bind_ok h
  obtain ⟨-, literal, hliteral, rfl⟩ := textLiteral_eq_ok_iff.mp hl
  refine ⟨literal, hliteral, ?_⟩
  unfold patternTest
  cases hengine : d.engine <;> rw [hengine] at h <;> cases h <;> rfl

theorem exists_of_patternOf (h : patternOf v = .ok pattern) :
    ∃ t, (v = .str t ∨ v = .pattern t) ∧ t ≠ [] ∧ Pattern.withoutDelimiters t = pattern := by
  unfold patternOf at h
  split at h
  · cases h
  next t hne =>
    cases h
    exact ⟨t, .inr rfl, fun ht => hne (by rw [ht]), rfl⟩
  · cases h
  next t hne =>
    cases h
    exact ⟨t, .inl rfl, fun ht => hne (by rw [ht]), rfl⟩
  · cases h

/-- A search by a regular expression is one by what its argument has between slashes, or by all of
the argument. -/
theorem exists_of_operator_regex {field : Text} {s : Option Sql}
    (h : d.operator .regex field v = .ok s) :
    ∃ t selector literal, (v = .str t ∨ v = .pattern t) ∧ t ≠ [] ∧
      d.selector field true = .ok selector ∧
      d.quote (Pattern.withoutDelimiters t) = .ok literal ∧
      s = some (patternTest d.engine selector [.literal literal]) := by
  obtain ⟨selector, hselector, h⟩ := exists_of_bind_ok h
  dsimp only at h
  split at h
  · cases h
  next pattern hpattern =>
    obtain ⟨t, hv, ht, rfl⟩ := exists_of_patternOf hpattern
    obtain ⟨s, hs, rfl⟩ := exists_of_map_ok h
    obtain ⟨literal, hliteral, rfl⟩ := exists_of_matchesPattern hs
    exact ⟨t, selector, literal, hv, ht, hselector, hliteral, rfl⟩

/-- Slashes around an expression and letters after them are taken off, and what is then left is what
a filter searches by: whichever way a field is searched in a filter that has SQL, the argument is a
text or a compiled expression, its field is compared with a literal of what stands in it between
slashes, or of all of it where it is no expression between slashes; and the text of the literal is
empty exactly when nothing stands between the slashes. -/
theorem expression_searches (d : Dialect) (criteria : Value) (sql : Option Sql) :
    (∀ pattern letters : Text, letters.all Text.isAsciiLetter = true →
        Pattern.withoutDelimiters ("/" ++ pattern ++ "/" ++ letters) = pattern) ∧
      (d.expression criteria = .ok sql → ∀ field w v, HasField criteria field w → Searches w v →
        ∃ t pattern selector literal, (v = .str t ∨ v = .pattern t) ∧
          (Pattern.Delimits pattern t ∨ pattern = t ∧ ∀ other, ¬Pattern.Delimits other t) ∧
          (pattern = [] ↔ Pattern.Delimits [] t) ∧
          d.selector field true = .ok selector ∧ d.quote pattern = .ok literal ∧
          ∃ whole ∈ sql, patternTest d.engine selector [.literal literal] ⊆ whole) := by
  refine ⟨fun pattern letters hletters => ?_, fun h field w v hfield hsearch => ?_⟩
  · have hdelimits : Pattern.Delimits pattern ("/" ++ pattern ++ "/" ++ letters) :=
      ⟨letters, hletters, .inl rfl⟩
    exact hdelimits.eq
  · obtain ⟨key, hkey, hregex⟩ := hsearch.exists_condition
    obtain ⟨op, s, hop, -, hs, hcontained⟩ :=
      exists_operator_of_hasCondition ⟨w, hfield, hkey⟩ h
    obtain rfl : op = .regex := Option.some.inj (hop.symm.trans hregex)
    obtain ⟨t, selector, literal, hv, ht, hselector, hliteral, rfl⟩ := exists_of_operator_regex hs
    have hpattern := Pattern.withoutDelimiters_eq_iff.mp (rfl : Pattern.withoutDelimiters t = _)
    refine ⟨t, _, selector, literal, hv, hpattern, ?_, hselector, hliteral, hcontained _ rfl⟩
    rw [Pattern.withoutDelimiters_eq_iff]
    exact or_iff_left fun hall => ht hall.1.symm

/-- An expression with slashes and a newline in it, and a negated one with a newline at its end. -/
theorem expression_searches_negated :
    let d : Dialect := ⟨.mysql, fun t => .ok (backslashQuoted t)⟩
    let asked : Value := .object [("$not", .str "/x/y/i\n")]
    let criteria : Value := .object [("a", asked)]
    List.all ("i" : Text) Text.isAsciiLetter = true ∧
      Pattern.withoutDelimiters ("/" ++ "a/b\n" ++ "/" ++ "i") = "a/b\n" ∧
      HasField criteria "a" asked ∧ Searches asked (.str "/x/y/i\n") ∧
      ∃ sql, d.expression criteria = .ok (some sql) ∧ .literal "'x/y'" ∈ sql := by
  intro d asked criteria
  have hletters : List.all ("i" : Text) Text.isAsciiLetter = true := by decide
  have hfield : HasField criteria "a" asked := ⟨.here List.mem_cons_self, by decide⟩
  have hsearch : Searches asked (.str "/x/y/i\n") := .opposite rfl
  have hsql : ∃ sql, d.expression criteria = .ok (some sql) := ⟨_, rfl⟩
  obtain ⟨sql, hsql⟩ := hsql
  obtain ⟨hstrips, hsearches⟩ := expression_searches d criteria (some sql)
  refine ⟨hletters, hstrips "a/b\n" "i" hletters, hfield, hsearch, sql, hsql, ?_⟩
  obtain ⟨t, pattern, selector, literal, hv, hpattern, -, -, hliteral, whole, ⟨⟩, hsubset⟩ :=
    hsearches hsql "a" asked _ hfield hsearch
  obtain rfl : t = ("/x/y/i\n" : Text) := by
    rcases hv with ⟨⟨⟩⟩ | ⟨⟨⟩⟩
    rfl
  obtain rfl : pattern = ("x/y" : Text) :=
    (Pattern.withoutDelimiters_eq_iff.mpr hpattern).symm.trans (by decide)
  obtain rfl : literal = ("'x/y'" : Text) := (Except.ok.inj hliteral).symm.trans (by decide)
  exact hsubset (by simp [patternTest, d])

/-- The argument is not empty, but nothing stands between its slashes. -/
theorem not_expression_searches_empty :
    ¬ ∀ (d : Dialect) (field : Text) (v : Value) (sql : Sql),
      d.expression (.object [(field, .object [("$regex", v)])]) = .ok (some sql) →
        ∃ pattern selector literal, pattern ≠ [] ∧ d.selector field true = .ok selector ∧
          d.quote pattern = .ok literal ∧ sql = patternTest d.engine selector [.literal literal] := by
  intro h
  obtain ⟨pattern, selector, literal, hne, hselector, hliteral, hsql⟩ :=
    h ⟨.sqlite, fun t => .ok (doubleQuoted t)⟩ "a" (.str "//") _ rfl
  cases hselector
  cases hliteral
  have hlast : some (Piece.literal (doubleQuoted [])) = some (.literal (doubleQuoted pattern)) :=
    congrArg List.getLast? hsql
  have hquoted : [] = Text.replace pattern doubleQuoted.quoteMark
      [doubleQuoted.quoteMark, doubleQuoted.quoteMark] := by
    simpa [doubleQuoted] using hlast
  obtain ⟨c, pattern, rfl⟩ := List.exists_cons_of_ne_nil hne
  rw [Text.replace, List.flatMap_cons] at hquoted
  split at hquoted <;> cases hquoted

end Dialect

end DocStore
