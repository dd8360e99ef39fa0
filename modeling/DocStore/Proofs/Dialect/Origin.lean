import DocStore.Proofs.Dialect.Accord
import DocStore.Proofs.Json.Plain
import DocStore.Proofs.Sql.Form

/-!
Where the SQL of an operator comes from. Every piece of it is one of some fixed
words, the column of the documents, a literal that the connection quotes, or a
number of the argument; and what fails is the form of an argument, or the
quoting of a text. Both are said of each hook of a dialect, and so of every
operator that has an SQL form.
-/

namespace DocStore.Dialect

/-- The words that the SQL of operators is put together with, in one engine or another. -/
def words : List String :=
  ["NULL", " ->> ", " -> ", " #>> ", " #> ", "json_extract(", ", ", "(", ")", "))", "]", " ",
    "CAST(", " AS DECIMAL(65, 30))", " AS JSON)", "(CASE WHEN jsonb_typeof(", ") = ", " THEN (",
    ")::numeric END)", "JSON_QUOTE(", "JSON_CONTAINS(", ", JSON_ARRAY(", " ? ", " @> ", "::jsonb",
    " ?& array[", "EXISTS (SELECT 1 FROM json_each(", ") WHERE json_each.value = ", " AND ",
    "LOWER(", ") REGEXP LOWER(", " ~* ", " REGEXP ", "(JSON_TYPE(", " AND JSON_LENGTH(",
    " THEN jsonb_array_length(", ") END) = ", "(json_type(", " AND json_array_length(", "MOD(",
    " % ", " ESCAPE ", " LIKE ", ">", ">=", "<", "<=", " = ", " <> ", " IS NULL", " IS NOT NULL",
    "1 = 0", "1 = 1", " IN (", " NOT IN ("]

/-- The texts that stand in literals whatever the argument is. -/
def fixedTexts : List String := ["number", "ARRAY", "array", "\\"]

/-- Where a piece of the SQL of an operator comes from, when the operator is put on a field and the
numbers without quotes are among the given ones. -/
inductive Origin (d : Dialect) (field : Text) (numbers : List Number) : Piece → Prop where
  | word {w : String} (h : w ∈ words) : Origin d field numbers (.code w)
  | column : Origin d field numbers (.identifier (quoteName d.engine.nameMark "document"))
  | fixed {t : String} (h : t ∈ fixedTexts) : Origin d field numbers (.literal ("'" ++ t ++ "'"))
  /-- The path of the field. -/
  | path {t l : Text} (ht : Path.json field = .ok t ∨ Path.textArray field = .ok t)
    (hl : d.quote t = .ok l) : Origin d field numbers (.literal l)
  /-- A text that has a UTF-8 form. -/
  | text {t l : Text} (ht : t.isEncodable = true) (hl : d.quote t = .ok l) :
    Origin d field numbers (.literal l)
  | number {n : Number} (h : n ∈ numbers) : Origin d field numbers (.number n.display)

/-- The faults of an operator that has an SQL form. -/
inductive Refuses (d : Dialect) : Fault → Prop where
  | argument (fault : ArgumentFault) : Refuses d ↑fault
  | quote {t : Text} {fault : Fault} (h : d.quote t = .error fault) : Refuses d fault

/-- A row of pieces with an origin. -/
def IsWritten (d : Dialect) (field : Text) (numbers : List Number) (s : Sql) : Prop :=
  ∀ p ∈ s, Origin d field numbers p

/-- A computation of SQL whose pieces have an origin, and whose faults are those of an operator. -/
abbrev Writes (d : Dialect) (field : Text) (numbers : List Number) : Except Fault Sql → Prop :=
  ComesTo (IsWritten d field numbers) d.Refuses

variable {d : Dialect} {field : Text} {numbers : List Number}

namespace IsWritten

@[simp] theorem append_iff {s t : Sql} :
    IsWritten d field numbers (s ++ t) ↔
      IsWritten d field numbers s ∧ IsWritten d field numbers t :=
  List.forall_mem_append

@[simp] theorem cons_iff {p : Piece} {s : Sql} :
    IsWritten d field numbers (p :: s) ↔ Origin d field numbers p ∧ IsWritten d field numbers s :=
  List.forall_mem_cons

@[simp] theorem nil : IsWritten d field numbers [] := fun _ hp => nomatch hp

theorem code {w : String} (h : w ∈ words) : IsWritten d field numbers (Sql.code w) :=
  List.forall_mem_singleton.mpr (.word h)

theorem fixed {t : String} (h : t ∈ fixedTexts) : IsWritten d field numbers (Sql.fixed t) :=
  List.forall_mem_singleton.mpr (.fixed h)

theorem column : IsWritten d field numbers d.documentColumn :=
  List.forall_mem_singleton.mpr .column

theorem join {separator : String} (h : separator ∈ words) {parts : List Sql}
    (hparts : ∀ s ∈ parts, IsWritten d field numbers s) :
    IsWritten d field numbers (Sql.join separator parts) :=
  Sql.forall_mem_join (.word h) hparts

end IsWritten

/-- SQL that is made of SQL. -/
theorem Writes.bind {e : Except Fault Sql} {f : Sql → Except Fault Sql}
    (h : Writes d field numbers e)
    (hf : ∀ s, IsWritten d field numbers s → Writes d field numbers (f s)) :
    Writes d field numbers (e >>= f) := ComesTo.bind h hf

/-- A computation of several rows of SQL of this kind. -/
abbrev WritesAll (d : Dialect) (field : Text) (numbers : List Number) :
    Except Fault (List Sql) → Prop :=
  ComesTo (fun parts => ∀ s ∈ parts, IsWritten d field numbers s) d.Refuses

/-! ### Literals -/

theorem quoted_writes {t : Text}
    (h : ∀ l, d.quote t = .ok l → Origin d field numbers (.literal l)) :
    Writes d field numbers (d.quoted t) := by
  unfold quoted
  cases hquote : d.quote t with
  | error fault => exact .quote hquote
  | ok l => exact List.forall_mem_singleton.mpr (h l hquote)

theorem textLiteral_writes (t : Text) : Writes d field numbers (d.textLiteral t) := by
  unfold textLiteral
  split
  next ht => exact quoted_writes fun l hl => .text ht hl
  next => exact .argument _

theorem isEncodable_display (n : Number) : n.display.isEncodable = true := by
  obtain ⟨cs, hcs, heq⟩ := n.isNumeral_display
  rw [heq]
  exact (Json.AllPlain.numeral hcs).isEncodable

theorem numberLiteral_writes {n : Number} (h : d.hasBareNumbers = true → n ∈ numbers) :
    Writes d field numbers (d.numberLiteral n) := by
  unfold numberLiteral
  split
  next hbare => exact List.forall_mem_singleton.mpr (.number (h hbare))
  next => exact quoted_writes fun l hl => .text (isEncodable_display n) hl

theorem truthLiteral_writes {b : Bool} (h : d.hasBareNumbers = true → .int b.toNat ∈ numbers) :
    Writes d field numbers (d.truthLiteral b) := by
  unfold truthLiteral
  split
  next hbare =>
    have hnumber : Origin d field numbers (.number (Number.int b.toNat).display) :=
      .number (h hbare)
    cases b <;> exact List.forall_mem_singleton.mpr hnumber
  next => exact quoted_writes fun l hl => .text (by cases b <;> decide) hl

/-- The numbers that the literal of a value writes without quotes are those the value counts as. -/
theorem literal_writes {v : Value}
    (h : d.hasBareNumbers = true → ∀ n, v.numeric? = some n → n ∈ numbers) :
    Writes d field numbers (d.literal v) := by
  cases v with
  | null => exact .code (by decide)
  | bool b => exact truthLiteral_writes fun hbare => h hbare _ rfl
  | int n => exact numberLiteral_writes fun hbare => h hbare _ rfl
  | float x => exact numberLiteral_writes fun hbare => h hbare _ rfl
  | str t => exact textLiteral_writes t
  | _ => exact .argument _

theorem literals_writes {vs : List Value}
    (h : d.hasBareNumbers = true → ∀ v ∈ vs, ∀ n, v.numeric? = some n → n ∈ numbers) :
    Writes d field numbers (d.literals vs) :=
  have hitems : WritesAll d field numbers (vs.mapM d.literal) :=
    ComesTo.mapM fun v hv => literal_writes fun hbare => h hbare v hv
  hitems.bind fun _ hitems => .pure (.join (by decide) hitems)

theorem jsonLiteral_writes {v : Value} (hv : (Json.encode v).isSome = true) :
    Writes d field numbers (d.jsonLiteral v) := by
  obtain ⟨t, ht⟩ := Option.isSome_iff_exists.mp hv
  rw [jsonLiteral, ht]
  exact quoted_writes fun l hl => .text (Json.encode_isEncodable ht).1 hl

theorem jsonValue_writes {v : Value} (hv : v.isScalar = true) :
    Writes d field numbers (d.jsonValue v) := by
  have hjson : Writes d field numbers (d.jsonLiteral v) :=
    jsonLiteral_writes (isSome_encode_of_isScalar hv)
  cases v with
  | str t =>
    refine (textLiteral_writes t).bind fun s hs => .pure ?_
    simp (disch := decide) [IsWritten.code, hs]
  | _ =>
    refine hjson.bind fun s hs => .pure ?_
    simp (disch := decide) [IsWritten.code, hs]

/-! ### Selectors -/

theorem pathLiteral_writes : Writes d field numbers (d.pathLiteral field) := by
  unfold pathLiteral
  cases d.engine with
  | mysql | sqlite =>
    dsimp only
    cases hpath : Path.json field with
    | error fault => exact .argument fault
    | ok t => exact quoted_writes fun l hl => .path (.inl hpath) hl
  | pgsql =>
    dsimp only
    cases hpath : Path.textArray field with
    | error fault => exact .argument fault
    | ok t => exact quoted_writes fun l hl => .path (.inr hpath) hl

theorem selector_writes (asText : Bool) : Writes d field numbers (d.selector field asText) := by
  refine pathLiteral_writes.bind fun path hpath => ?_
  split <;> refine .pure ?_
  · cases asText <;> simp (disch := decide) [IsWritten.code, IsWritten.column, hpath]
  · cases asText <;> simp (disch := decide) [IsWritten.code, IsWritten.column, hpath]
  · simp (disch := decide) [IsWritten.code, IsWritten.column, hpath]

theorem numericSelector_writes : Writes d field numbers (d.numericSelector field) := by
  unfold numericSelector
  split
  · refine (selector_writes true).bind fun s hs => .pure ?_
    simp (disch := decide) [IsWritten.code, hs]
  · refine (selector_writes false).bind fun s hs => (selector_writes true).bind fun t ht => .pure ?_
    simp (disch := decide) [IsWritten.code, IsWritten.fixed, hs, ht]
  · exact selector_writes true

/-! ### Operators -/

theorem has_writes {v : Value} (hv : v.isScalar = true)
    (h : d.hasBareNumbers = true → ∀ n, v.numeric? = some n → n ∈ numbers) :
    Writes d field numbers (d.has field v) := by
  unfold has
  split
  · refine (selector_writes false).bind fun s hs => (jsonValue_writes hv).bind fun t ht => .pure ?_
    simp (disch := decide) [IsWritten.code, hs, ht]
  · refine (selector_writes false).bind fun s hs => ?_
    split
    next t =>
      refine (textLiteral_writes t).bind fun t ht => .pure ?_
      simp (disch := decide) [IsWritten.code, hs, ht]
    next =>
      have hlist : (Json.encode (.list [v])).isSome = true :=
        isSome_encode_scalars (by simpa using hv)
      refine (jsonLiteral_writes hlist).bind fun t ht => .pure ?_
      simp (disch := decide) [IsWritten.code, hs, ht]
  · refine pathLiteral_writes.bind fun s hs => (literal_writes h).bind fun t ht => .pure ?_
    simp (disch := decide) [IsWritten.code, IsWritten.column, hs, ht]

theorem hasAll_writes {vs : List Value} (hvs : ∀ v ∈ vs, v.isScalar = true)
    (h : d.hasBareNumbers = true → ∀ v ∈ vs, ∀ n, v.numeric? = some n → n ∈ numbers) :
    Writes d field numbers (d.hasAll field vs) := by
  unfold hasAll
  split
  · refine (selector_writes false).bind fun s hs => ?_
    have hitems : WritesAll d field numbers (vs.mapM d.jsonValue) :=
      ComesTo.mapM fun v hv => jsonValue_writes (hvs v hv)
    refine hitems.bind fun items hitems => .pure ?_
    have hlist : IsWritten d field numbers (Sql.join ", " items) := .join (by decide) hitems
    simp (disch := decide) [IsWritten.code, hs, hlist]
  · refine (selector_writes false).bind fun s hs => ?_
    split
    · refine (literals_writes h).bind fun t ht => .pure ?_
      simp (disch := decide) [IsWritten.code, hs, ht]
    · refine (jsonLiteral_writes (isSome_encode_scalars hvs)).bind fun t ht => .pure ?_
      simp (disch := decide) [IsWritten.code, hs, ht]
  · have hitems : WritesAll d field numbers (vs.mapM (d.has field)) :=
      ComesTo.mapM fun v hv => has_writes (hvs v hv) fun hbare => h hbare v hv
    refine hitems.bind fun items hitems => .pure ?_
    have hlist : IsWritten d field numbers (Sql.join " AND " items) := .join (by decide) hitems
    simp (disch := decide) [IsWritten.code, hlist]

theorem matchesPattern_writes {selector : Sql} (hselector : IsWritten d field numbers selector)
    (pattern : Text) : Writes d field numbers (d.matchesPattern selector pattern) := by
  refine (textLiteral_writes pattern).bind fun t ht => ?_
  split <;> refine .pure ?_ <;> simp (disch := decide) [IsWritten.code, hselector, ht]

theorem hasSize_writes {size : Nat} (h : .int size ∈ numbers) :
    Writes d field numbers (d.hasSize field size) := by
  have hcount : Origin d field numbers (.number (Text.ofNat size)) := .number h
  unfold hasSize
  dsimp only
  split
  · refine (selector_writes false).bind fun s hs => .pure ?_
    simp (disch := decide) [IsWritten.code, IsWritten.fixed, hs, hcount]
  · refine (selector_writes false).bind fun s hs => .pure ?_
    simp (disch := decide) [IsWritten.code, IsWritten.fixed, hs, hcount]
  · refine pathLiteral_writes.bind fun s hs => .pure ?_
    simp (disch := decide) [IsWritten.code, IsWritten.fixed, IsWritten.column, hs, hcount]

theorem leaves_writes {divisor remainder : Number} (hdivisor : divisor ∈ numbers)
    (hremainder : remainder ∈ numbers) :
    Writes d field numbers (d.leaves field divisor remainder) := by
  have hmodulus : Origin d field numbers (.number divisor.display) := .number hdivisor
  have hrest : Origin d field numbers (.number remainder.display) := .number hremainder
  have hleaves {e : Except Fault Sql} (he : Writes d field numbers e) (opening between : String)
      (hopening : opening ∈ words) (hbetween : between ∈ words) :
      Writes d field numbers (do return Sql.code opening ++ (← e) ++ Sql.code between ++
        [.number divisor.display] ++ Sql.code ") = " ++ [.number remainder.display]) := by
    refine he.bind fun s hs => .pure ?_
    simp (disch := first | assumption | decide) [IsWritten.code, hs, hmodulus, hrest]
  unfold leaves
  dsimp only
  split
  · exact hleaves numericSelector_writes "MOD(" ", " (by decide) (by decide)
  · exact hleaves numericSelector_writes "MOD(" ", " (by decide) (by decide)
  · exact hleaves (selector_writes true) "(" " % " (by decide) (by decide)

theorem likeEscape_isWritten : IsWritten d field numbers d.likeEscape := by
  unfold likeEscape
  split
  · exact .nil
  · exact .nil
  · simp (disch := decide) [IsWritten.code, IsWritten.fixed]

theorem comparisonSign_mem (op : Operator) : comparisonSign op ∈ words := by
  cases op <;> decide

theorem compares_writes (op : Operator) {selector : Sql}
    (hselector : IsWritten d field numbers selector) {v : Value}
    (h : d.hasBareNumbers = true → ∀ n, v.numeric? = some n → n ∈ numbers) :
    Writes d field numbers (d.compares op field selector v) := by
  unfold compares
  split
  · exact .argument _
  · have hcompare (s : Sql) (hs : IsWritten d field numbers s) : Writes d field numbers (do
        return s ++ (" " ++ comparisonSign op ++ " ") ++ (← d.literal v)) := by
      refine (literal_writes h).bind fun t ht => .pure ?_
      simp (disch := decide) [IsWritten.code, IsWritten.code (comparisonSign_mem op), hs, ht]
    dsimp only
    split
    · exact numericSelector_writes.bind hcompare
    · exact hcompare selector hselector

theorem among_writes (op : Operator) {selector : Sql}
    (hselector : IsWritten d field numbers selector) {v : Value}
    (h : d.hasBareNumbers = true →
      ∀ vs, v.items? = some vs → ∀ w ∈ vs, ∀ n, w.numeric? = some n → n ∈ numbers) :
    Writes d field numbers (d.among op selector v) := by
  unfold among
  split
  · exact .argument _
  · split <;> exact .code (by decide)
  next vs _ hvs =>
    refine (literals_writes fun hbare => h hbare vs hvs).bind fun t ht => .pure ?_
    split <;> simp (disch := decide) [IsWritten.code, hselector, ht]

/-- The numbers that an operator writes without quotes for its argument. -/
def bareNumbers (d : Dialect) (op : Operator) (v : Value) : List Number :=
  match op with
  | .size => v.number?.toList
  | .mod =>
    match divisionOf v with
    | .ok (divisor, remainder) => [divisor, remainder]
    | .error _ => []
  | .eq | .ne | .gt | .gte | .lt | .lte | .has =>
    if d.hasBareNumbers then v.numeric?.toList else []
  | .oneOf | .noneOf | .all =>
    if d.hasBareNumbers then (v.items?.getD []).filterMap Value.numeric? else []
  | _ => []

/-- Every piece that an operator makes has an origin. -/
theorem operator_writes {op : Operator} (hop : op.isSupported = true) (field : Text) (v : Value) :
    ComesTo (fun s : Option Sql => ∀ sql ∈ s, IsWritten d field (d.bareNumbers op v) sql) d.Refuses
      (d.operator op field v) := by
  generalize hnumbers : d.bareNumbers op v = numbers
  have hone {s : Sql} (hs : IsWritten d field numbers s) :
      ∀ sql ∈ some s, IsWritten d field numbers sql := by
    rintro _ ⟨⟩
    exact hs
  have hsome {e : Except Fault Sql} (he : Writes d field numbers e) :
      ComesTo (fun s : Option Sql => ∀ sql ∈ s, IsWritten d field numbers sql) d.Refuses
        (some <$> e) := he.map fun _ => hone
  have hscalar (h : d.bareNumbers op v = if d.hasBareNumbers then v.numeric?.toList else [])
      (hbare : d.hasBareNumbers = true) (n : Number) (hn : v.numeric? = some n) : n ∈ numbers := by
    simp [← hnumbers, h, hbare, hn]
  have hitems (h : d.bareNumbers op v =
        if d.hasBareNumbers then (v.items?.getD []).filterMap Value.numeric? else [])
      (hbare : d.hasBareNumbers = true) (vs : List Value) (hvs : v.items? = some vs) (w : Value)
      (hw : w ∈ vs) (n : Number) (hn : w.numeric? = some n) : n ∈ numbers := by
    simp only [← hnumbers, h, hbare, hvs, if_true, Option.getD_some]
    exact List.mem_filterMap.mpr ⟨w, hw, hn⟩
  unfold operator
  have hselector : Writes d field numbers (d.selector field true) := selector_writes true
  refine ComesTo.bind hselector fun s hs => ?_
  cases op with
  | eq | ne =>
    dsimp only
    split
    · refine .pure (hone ?_)
      simp (disch := decide) [IsWritten.code, hs]
    · have hliteral : Writes d field numbers (d.literal v) := literal_writes (hscalar rfl)
      refine ComesTo.bind hliteral fun t ht => .pure (hone ?_)
      simp (disch := decide) [IsWritten.code, hs, ht]
  | gt | gte | lt | lte => exact hsome (compares_writes _ hs (hscalar rfl))
  | oneOf | noneOf => exact hsome (among_writes _ hs (hitems rfl))
  | has =>
    dsimp only
    split
    · exact .argument _
    next hv => exact hsome (has_writes (by simp_all) (hscalar rfl))
  | all =>
    dsimp only
    split
    · exact .argument _
    · exact .pure (hone (.code (by decide)))
    next vs _ hvs =>
      obtain ⟨hlist, hscalars⟩ := items_of_scalarsOf hvs
      refine hsome (hasAll_writes (fun w hw => ?_) fun hbare => hitems rfl hbare vs hlist)
      exact (Bool.and_eq_true_iff.mp (List.all_eq_true.mp hscalars w hw)).1
  | regex =>
    dsimp only
    split
    · exact .argument _
    next pattern _ => exact hsome (matchesPattern_writes hs pattern)
  | size =>
    dsimp only
    split
    next n => exact hsome (hasSize_writes (hnumbers ▸ List.mem_singleton_self _))
    · exact .argument _
  | mod =>
    dsimp only
    split
    · exact .argument _
    next m n hdivision =>
      have hpair : numbers = [m, n] := by
        rw [← hnumbers, bareNumbers, hdivision]
      exact hsome (leaves_writes (by simp [hpair]) (by simp [hpair]))
  | present =>
    refine .pure (hone ?_)
    split <;> simp (disch := decide) [IsWritten.code, hs]
  | text =>
    dsimp only
    split
    next t =>
      have hliteral : Writes d field numbers (d.textLiteral (Like.containing t)) :=
        textLiteral_writes _
      refine ComesTo.bind hliteral fun t ht => .pure (hone ?_)
      simp (disch := decide) [IsWritten.code, likeEscape_isWritten, hs, ht]
    · exact .argument _
  | options => exact fun sql hsql => nomatch hsql
  | func | fuzzy => cases hop

end DocStore.Dialect
