import DocStore.Dialect.Basic
import DocStore.Proofs.Dialect.Accord
import DocStore.Proofs.Dialect.Literal
import DocStore.Proofs.Json.Reading
import DocStore.Proofs.Path.Reading

/-!
Fields told apart. The keys of a field are read back from its text array, and no
two fields have one JSON path: a leg ends where the next one begins, whatever its
key is, though not every path can be read. So the selectors of different fields
differ in every dialect whose connection quotes different texts differently.
-/

namespace DocStore

namespace Text

/-- The parts of a text, put together again. -/
theorem join_split (mark : CodePoint) (t : Text) : join [mark] (split mark t) = t := by
  induction t with
  | nil => rfl
  | cons c t ih =>
    unfold split
    split
    next hc =>
      obtain ⟨part, parts, hparts⟩ := List.exists_cons_of_ne_nil (split_ne_nil mark t)
      rw [hparts] at ih ⊢
      rw [hc, ← ih]
      simp [join, List.intercalate]
    next =>
      split
      next hnil => exact absurd hnil (split_ne_nil mark t)
      next part parts hparts =>
        rw [hparts] at ih
        rw [← ih]
        cases parts <;> simp [join, List.intercalate]

end Text

namespace Path

theorem ne_nil_of_segments {field : Text} {keys : List Text} (h : segments field = .ok keys) :
    keys ≠ [] := by
  unfold segments at h
  split_ifs at h
  cases h
  exact Text.split_ne_nil _ _

/-- The keys are all that a field is. -/
theorem eq_of_segments {f g : Text} {keys : List Text} (hf : segments f = .ok keys)
    (hg : segments g = .ok keys) : f = g := by
  have hjoin {field : Text} (h : segments field = .ok keys) : Text.join ['.'] keys = field := by
    unfold segments at h
    split_ifs at h
    cases h
    exact Text.join_split _ field
  exact (hjoin hf).symm.trans (hjoin hg)

/-! ### Text arrays -/

/-- What the reader of a text array is in the midst of. -/
inductive Spot where
  /-- Before the opening brace. -/
  | before
  /-- After the opening brace. -/
  | opened
  /-- In an element. -/
  | quoted (key : Text)
  /-- In an element, after a backslash. -/
  | escaped (key : Text)
  /-- After an element. -/
  | closed
  /-- After a comma. -/
  | comma
  /-- After the closing brace. -/
  | after
  /-- At something that belongs to no text array. -/
  | stuck
  deriving DecidableEq

namespace Spot

/-- Reads a code point: the elements that are then complete, and what comes next. -/
def step : Spot → CodePoint → List Text × Spot
  | .before, c => ([], if c = '\x7b' then .opened else .stuck)
  | .opened, c => ([], if c = '"' then .quoted [] else if c = '\x7d' then .after else .stuck)
  | .quoted key, c =>
    if c = '"' then ([key], .closed)
    else if c = '\\' then ([], .escaped key)
    else ([], .quoted (key ++ [c]))
  | .escaped key, c => ([], .quoted (key ++ [c]))
  | .closed, c => ([], if c = ',' then .comma else if c = '\x7d' then .after else .stuck)
  | .comma, c => ([], if c = '"' then .quoted [] else .stuck)
  | .after, _ => ([], .stuck)
  | .stuck, _ => ([], .stuck)

/-- The elements that the rest of a text array completes. -/
def read : Spot → Text → Option (List Text)
  | s, [] => if s = .after then some [] else none
  | s, c :: t => ((s.step c).2.read t).map ((s.step c).1 ++ ·)

theorem read_quoted_escaped (u key rest : Text) :
    (quoted u).read (escapeQuotes key ++ rest) = (quoted (u ++ key)).read rest := by
  induction key generalizing u with
  | nil => simp [escapeQuotes]
  | cons c key ih =>
    by_cases hc : c = '\\' ∨ c = '"'
    · have hslash : ('\\' : CodePoint) ≠ '"' := by decide
      simp [escapeQuotes_cons_of_mark hc, read, step, hslash, ih]
    · obtain ⟨hslash, hquote⟩ := not_or.mp hc
      simp [escapeQuotes_cons_of_not_mark hc, read, step, hslash, hquote, ih]

/-- Where an element may stand, it is read as its key. -/
theorem read_element {s : Spot} (hs : s = .opened ∨ s = .comma) (key rest : Text) :
    s.read (element key ++ rest) = (closed.read rest).map (key :: ·) := by
  have htext : element key ++ rest =
      CodePoint.ofChar '"' :: (escapeQuotes key ++ CodePoint.ofChar '"' :: rest) := by
    simp [element, Text.ofString]
  have hopen : s.step '"' = ([], quoted []) := by obtain rfl | rfl := hs <;> rfl
  have hclose : step (quoted key) '"' = ([key], closed) := rfl
  rw [htext, read, hopen, read_quoted_escaped, List.nil_append, read, hclose]
  simp [Function.comp_def]

/-- Elements with commas between them and a brace after them are read as their keys. -/
theorem read_elements {s : Spot} (hs : s = .opened ∨ s = .comma) {keys : List Text}
    (hne : keys ≠ []) :
    s.read (Text.join "," (keys.map element) ++ [CodePoint.ofChar '\x7d']) = some keys := by
  induction keys generalizing s with
  | nil => exact absurd rfl hne
  | cons key keys ih =>
    cases keys with
    | nil =>
      rw [List.map_singleton, Json.join_singleton, read_element hs]
      rfl
    | cons next keys =>
      have hcomma (rest : Text) : closed.read (CodePoint.ofChar ',' :: rest) = comma.read rest := by
        rw [read]
        simp [step]
      have hrest := ih (.inr rfl) (List.cons_ne_nil next keys)
      rw [List.map_cons] at hrest
      rw [List.map_cons, List.map_cons, Json.join_cons_cons, List.append_assoc, List.cons_append,
        read_element hs, hcomma, hrest]
      rfl

end Spot

/-- The elements of a text array: in double quotes with backslash escapes, with commas between them
and braces around them. -/
def elements? (t : Text) : Option (List Text) := Spot.before.read t

theorem textArray_of_segments {field : Text} {keys : List Text} (h : segments field = .ok keys) :
    textArray field = .ok (CodePoint.ofChar '\x7b' ::
      (Text.join "," (keys.map element) ++ [CodePoint.ofChar '\x7d'])) := by
  rw [textArray, h]
  rfl

/-- The text array of a field is read as the keys of the field. -/
theorem elements?_textArray {field t : Text} {keys : List Text} (h : segments field = .ok keys)
    (ht : textArray field = .ok t) : elements? t = some keys := by
  cases (textArray_of_segments h).symm.trans ht
  rw [elements?, Spot.read]
  have hopen : Spot.before.step '\x7b' = ([], .opened) := rfl
  rw [hopen, Spot.read_elements (.inl rfl) (ne_nil_of_segments h)]
  rfl

/-! ### JSON paths -/

/-- Nothing, or what begins with a leg. -/
def BeginsLeg (t : Text) : Prop :=
  ∀ c ∈ t.head?, c = CodePoint.ofChar '.' ∨ c = CodePoint.ofChar '['

/-- What a code point is in a plain key, where neither the next leg nor a quoted key begins. -/
def staysPlain (c : CodePoint) : Bool := c ≠ '.' ∧ c ≠ '['

/-- What tells where a leg ends: no bracket is in an index, and neither a point nor a bracket in a
plain key, which does not begin with a double quote. -/
def Leg.IsClosed : Leg → Prop
  | .index digits => digits.all (· ≠ CodePoint.ofChar ']')
  | .plain key => (∃ c rest, key = c :: rest ∧ c ≠ CodePoint.ofChar '"') ∧ key.all staysPlain
  | .quoted _ => True

theorem staysPlain_of_isKeyPart {c : CodePoint} (h : isKeyPart c = true) : staysPlain c = true := by
  simp only [staysPlain, decide_eq_true_eq]
  constructor <;> rintro rfl <;> exact absurd h (by decide)

theorem Leg.isClosed_ofSegment (key : Text) : (Leg.ofSegment key).IsClosed := by
  have hname {name : Text} (h : isIdentifier name = true) (rest : Text) :
      (∃ c more, name ++ rest = c :: more ∧ c ≠ CodePoint.ofChar '"') ∧ name.all staysPlain := by
    cases name with
    | nil => cases h
    | cons c name =>
      simp only [isIdentifier, Bool.and_eq_true, List.all_eq_true] at h
      have hstart : isKeyPart c = true := by simp [isKeyPart, h.1]
      refine ⟨⟨c, _, rfl, ?_⟩, List.all_eq_true.mpr fun d hd => staysPlain_of_isKeyPart ?_⟩
      · rintro rfl
        exact absurd h.1 (by decide)
      · obtain rfl | hd := List.mem_cons.mp hd
        · exact hstart
        · exact h.2 d hd
  unfold Leg.ofSegment
  split_ifs with hdigits hplain
  · simp only [Text.isDigits, Bool.and_eq_true, List.all_eq_true] at hdigits
    refine List.all_eq_true.mpr fun c hc => decide_eq_true ?_
    rintro rfl
    exact absurd (hdigits.2 _ hc) (by decide)
  · obtain h | ⟨name, h, rfl⟩ := (isPlainKey_iff key).mp hplain
    · have hkey := hname h []
      rwa [List.append_nil] at hkey
    · obtain ⟨hbegins, hstays⟩ := hname h [CodePoint.ofChar '\n']
      exact ⟨hbegins, by simp [hstays, show staysPlain '\n' = true from rfl]⟩
  · trivial

/-- Texts up to where something first fails, and what is left of them there. -/
theorem append_inj_of_all {p : CodePoint → Bool} {t u rest more : Text} (ht : t.all p)
    (hu : u.all p) (hrest : ∀ c ∈ rest.head?, p c = false) (hmore : ∀ c ∈ more.head?, p c = false)
    (h : t ++ rest = u ++ more) : t = u ∧ rest = more := by
  have htake {v after : Text} (hv : v.all p) (hafter : ∀ c ∈ after.head?, p c = false) :
      (v ++ after).takeWhile p = v := by
    rw [List.takeWhile_append_of_pos (List.all_eq_true.mp hv)]
    cases after with
    | nil => simp
    | cons c after => simp [hafter c rfl]
  have heq : t = u := by rw [← htake ht hrest, h, htake hu hmore]
  subst heq
  exact ⟨rfl, List.append_cancel_left h⟩

/-- A double quote that has no backslash before it ends a quoted key. -/
theorem escapeQuotes_append_inj {t u rest more : Text}
    (h : escapeQuotes t ++ CodePoint.ofChar '"' :: rest =
      escapeQuotes u ++ CodePoint.ofChar '"' :: more) : t = u ∧ rest = more := by
  have hslash : ('\\' : CodePoint) ≠ '"' := by decide
  -- A quote that ends one key is no part of the other: there it has a backslash before it.
  have hends {v more : Text} {c : CodePoint} {rest : Text}
      (h : CodePoint.ofChar '"' :: rest = escapeQuotes (c :: v) ++ more) : False := by
    by_cases hc : c = '\\' ∨ c = '"'
    · rw [escapeQuotes_cons_of_mark hc] at h
      exact hslash (List.cons.inj h).1.symm
    · rw [escapeQuotes_cons_of_not_mark hc] at h
      exact hc (.inr (List.cons.inj h).1.symm)
  induction t generalizing u with
  | nil =>
    cases u with
    | nil => exact ⟨rfl, (List.cons.inj h).2⟩
    | cons d u => exact (hends h).elim
  | cons c t ih =>
    cases u with
    | nil => exact (hends h.symm).elim
    | cons d u =>
      by_cases hc : c = '\\' ∨ c = '"' <;> by_cases hd : d = '\\' ∨ d = '"'
      · rw [escapeQuotes_cons_of_mark hc, escapeQuotes_cons_of_mark hd] at h
        obtain ⟨rfl, htail⟩ := List.cons.inj (List.cons.inj h).2
        obtain ⟨rfl, hrest⟩ := ih htail
        exact ⟨rfl, hrest⟩
      · rw [escapeQuotes_cons_of_mark hc, escapeQuotes_cons_of_not_mark hd] at h
        exact absurd (.inl (List.cons.inj h).1.symm) hd
      · rw [escapeQuotes_cons_of_not_mark hc, escapeQuotes_cons_of_mark hd] at h
        exact absurd (.inl (List.cons.inj h).1) hc
      · rw [escapeQuotes_cons_of_not_mark hc, escapeQuotes_cons_of_not_mark hd] at h
        obtain ⟨rfl, htail⟩ := List.cons.inj h
        obtain ⟨rfl, hrest⟩ := ih htail
        exact ⟨rfl, hrest⟩

theorem Leg.beginsLeg_text (leg : Leg) (rest : Text) : BeginsLeg (leg.text ++ rest) := by
  rintro c hc
  cases leg with
  | index digits =>
    rw [Leg.text_index_append] at hc
    exact .inr (Option.some.inj hc).symm
  | plain key =>
    rw [Leg.text_plain_append] at hc
    exact .inl (Option.some.inj hc).symm
  | quoted key =>
    rw [Leg.text_quoted_append] at hc
    exact .inl (Option.some.inj hc).symm

theorem BeginsLeg.staysPlain {t : Text} (h : BeginsLeg t) :
    ∀ c ∈ t.head?, Path.staysPlain c = false := by
  intro c hc
  obtain rfl | rfl := h c hc <;> rfl

/-- Where legs begin alike, and legs follow, the legs are alike and so is what follows. -/
theorem Leg.text_append_inj {leg other : Leg} (hleg : leg.IsClosed) (hother : other.IsClosed)
    {rest more : Text} (hrest : BeginsLeg rest) (hmore : BeginsLeg more)
    (h : leg.text ++ rest = other.text ++ more) : leg = other ∧ rest = more := by
  have hmark : ('.' : CodePoint) ≠ '[' := by decide
  have hplain {key rest more : Text} (hkey : (Leg.plain key).IsClosed)
      (h : key ++ rest = CodePoint.ofChar '"' :: more) : False := by
    obtain ⟨⟨c, _, rfl, hc⟩, -⟩ := hkey
    exact hc (List.cons.inj h).1
  cases leg <;> cases other <;>
    simp only [Leg.text_index_append, Leg.text_plain_append, Leg.text_quoted_append] at h
  case index.index digits others =>
    have hbracket (t : Text) : ∀ c ∈ (CodePoint.ofChar ']' :: t).head?,
        decide (c ≠ CodePoint.ofChar ']') = false := by simp
    obtain ⟨rfl, htail⟩ :=
      append_inj_of_all hleg hother (hbracket rest) (hbracket more) (List.cons.inj h).2
    exact ⟨rfl, (List.cons.inj htail).2⟩
  case plain.plain key others =>
    obtain ⟨rfl, htail⟩ := append_inj_of_all hleg.2 hother.2 hrest.staysPlain hmore.staysPlain
      (List.cons.inj h).2
    exact ⟨rfl, htail⟩
  case quoted.quoted key others =>
    obtain ⟨rfl, htail⟩ := escapeQuotes_append_inj (List.cons.inj (List.cons.inj h).2).2
    exact ⟨rfl, htail⟩
  case plain.quoted => exact (hplain hleg (List.cons.inj h).2).elim
  case quoted.plain => exact (hplain hother (List.cons.inj h).2.symm).elim
  case index.plain | index.quoted => exact absurd (List.cons.inj h).1.symm hmark
  case plain.index | quoted.index => exact absurd (List.cons.inj h).1 hmark

theorem beginsLeg_legs (keys : List Text) :
    BeginsLeg (keys.flatMap fun key => (Leg.ofSegment key).text) := by
  cases keys with
  | nil => exact nofun
  | cons key keys => exact Leg.beginsLeg_text _ _

/-- No two lists of keys have the same legs. -/
theorem legs_inj {keys others : List Text}
    (h : (keys.flatMap fun key => (Leg.ofSegment key).text) =
      others.flatMap fun key => (Leg.ofSegment key).text) : keys = others := by
  have hne (key rest : Text) : (Leg.ofSegment key).text ++ rest ≠ [] := by
    cases Leg.ofSegment key <;>
      simp [Leg.text_index_append, Leg.text_plain_append, Leg.text_quoted_append]
  induction keys generalizing others with
  | nil =>
    cases others with
    | nil => rfl
    | cons other others => exact absurd h.symm (hne _ _)
  | cons key keys ih =>
    cases others with
    | nil => exact absurd h (hne _ _)
    | cons other others =>
      obtain ⟨hleg, hrest⟩ := Leg.text_append_inj (Leg.isClosed_ofSegment key)
        (Leg.isClosed_ofSegment other) (beginsLeg_legs keys) (beginsLeg_legs others) h
      have hkey : key = other := by
        rw [← (Leg.ofSegment_key key).1, hleg, (Leg.ofSegment_key other).1]
      rw [hkey, ih hrest]

/-- No two fields have one JSON path. -/
theorem json_inj {f g path : Text} {keys others : List Text} (hf : segments f = .ok keys)
    (hg : segments g = .ok others) (hpath : json f = .ok path) (hother : json g = .ok path) :
    f = g := by
  have hlegs := ((json_of_segments hf).symm.trans hpath).trans (hother.symm.trans (json_of_segments hg))
  have hkeys := legs_inj (List.cons.inj (Except.ok.inj hlegs)).2
  subst hkeys
  exact eq_of_segments hf hg

/-- No two fields have one text array. -/
theorem textArray_inj {f g t : Text} {keys others : List Text} (hf : segments f = .ok keys)
    (hg : segments g = .ok others) (ht : textArray f = .ok t) (hother : textArray g = .ok t) :
    f = g := by
  have hkeys := (elements?_textArray hf ht).symm.trans (elements?_textArray hg hother)
  cases hkeys
  exact eq_of_segments hf hg

end Path

namespace Dialect

/-- The connection quotes different texts differently. -/
def QuotesApart (d : Dialect) : Prop :=
  ∀ t u l, d.quote t = .ok l → d.quote u = .ok l → t = u

variable {d : Dialect}

/-- What an engine's connection quotes is read back, so that different texts are quoted differently,
but for the engine that takes no more than what stands before a NUL. -/
theorem native_quotesApart_iff (e : Engine) : (native e).QuotesApart ↔ e ≠ .sqlite := by
  constructor
  · rintro hapart rfl
    cases hapart "\x00" [] (doubleQuoted []) rfl rfl
  · intro he t u l ht hu
    have hread {v : Text} (h : (native e).quote v = .ok l) : e.lexis.lex l = some [.literal v] := by
      simp only [native] at h
      split at h
      next hl =>
        cases h
        simpa [he] using Engine.lex_quote hl
      next => cases h
    have hsame := (hread ht).symm.trans (hread hu)
    cases hsame
    rfl

theorem QuotesApart.eq_of_quoted (hapart : d.QuotesApart) {t u : Text} {s s' : Sql}
    (hs : d.quoted t = .ok s) (hs' : d.quoted u = .ok s') (h : s.render = s'.render) : t = u := by
  obtain ⟨l, hl, rfl⟩ := quoted_eq_ok_iff.mp hs
  obtain ⟨l', hl', rfl⟩ := quoted_eq_ok_iff.mp hs'
  have hsame : l = l' := by simpa [Sql.render, Piece.text] using h
  subst hsame
  exact hapart t u l hl hl'

/-- No two fields have one literal of their path. -/
theorem QuotesApart.eq_of_pathLiteral (hapart : d.QuotesApart) {f g : Text} {s s' : Sql}
    {keys others : List Text} (hf : Path.segments f = .ok keys) (hg : Path.segments g = .ok others)
    (hs : d.pathLiteral f = .ok s) (hs' : d.pathLiteral g = .ok s') (h : s.render = s'.render) :
    f = g := by
  have hjson := Path.json_of_segments hf
  have hjson' := Path.json_of_segments hg
  have harray := Path.textArray_of_segments hf
  have harray' := Path.textArray_of_segments hg
  unfold pathLiteral at hs hs'
  cases he : d.engine with
  | mysql | sqlite =>
    simp only [he, hjson, hjson'] at hs hs'
    exact Path.json_inj hf hg hjson (hapart.eq_of_quoted hs hs' h ▸ hjson')
  | pgsql =>
    simp only [he, harray, harray'] at hs hs'
    exact Path.textArray_inj hf hg harray (hapart.eq_of_quoted hs hs' h ▸ harray')

/-- The selectors of different fields differ, in every dialect whose connection quotes different texts
differently. Where the path is a text array, its elements are the keys of the field. -/
theorem selectors_apart (hd : d.QuotesEvery) (hapart : d.QuotesApart) {f g : Text}
    {keys others : List Text} (hf : Path.segments f = .ok keys) (hg : Path.segments g = .ok others) :
    (f ≠ g → ∀ asText, ∃ s t, d.selector f asText = .ok s ∧ d.selector g asText = .ok t ∧
        s.render ≠ t.render) ∧
      (d.engine = .pgsql → ∃ array literal, Path.elements? array = some keys ∧
        d.quote array = .ok literal ∧ ∀ asText, d.selector f asText =
          .ok (d.documentColumn ++ Sql.code (if asText then " #>> " else " #> ") ++
            [.literal literal])) := by
  constructor
  · intro hne asText
    obtain ⟨path, hpath⟩ := hd.exists_pathLiteral hf
    obtain ⟨other, hother⟩ := hd.exists_pathLiteral hg
    have hliterals : path.render ≠ other.render := fun h =>
      hne (hapart.eq_of_pathLiteral hf hg hpath hother h)
    unfold selector
    rw [ok_bind hpath, ok_bind hother]
    cases d.engine <;> exact ⟨_, _, rfl, rfl, by simpa using hliterals⟩
  · intro he
    have harray := Path.textArray_of_segments hf
    obtain ⟨literal, hliteral⟩ := hd _
    refine ⟨_, literal, Path.elements?_textArray hf harray, hliteral, fun asText => ?_⟩
    have hpath : d.pathLiteral f = .ok [.literal literal] := by
      unfold pathLiteral
      simp only [he, harray]
      exact quoted_eq_ok_iff.mpr ⟨literal, hliteral, rfl⟩
    unfold selector
    rw [ok_bind hpath, he]
    cases asText <;> rfl

/-- Two fields of which the second has the marks in one key that the text array of the first has
between two keys. -/
theorem selectors_apart_marks :
    let d := native .pgsql
    let keys : List Text := ["a", "0", "\\b\x7d"]
    let others : List Text := ["a\",\"0", "\\b\x7d"]
    (d.QuotesEvery ∧ d.QuotesApart ∧ Path.segments "a.0.\\b\x7d" = .ok keys ∧
        Path.segments "a\",\"0.\\b\x7d" = .ok others) ∧
      (∀ asText, ∃ s t, d.selector "a.0.\\b\x7d" asText = .ok s ∧
        d.selector "a\",\"0.\\b\x7d" asText = .ok t ∧ s.render ≠ t.render) ∧
      ∃ array literal, Path.elements? array = some keys ∧ d.quote array = .ok literal ∧
        ∀ asText, d.selector "a.0.\\b\x7d" asText =
          .ok (d.documentColumn ++ Sql.code (if asText then " #>> " else " #> ") ++
            [.literal literal]) := by
  intro d keys others
  have hd : d.QuotesEvery := fun t => ⟨doubleQuoted t, rfl⟩
  have hapart : d.QuotesApart := (native_quotesApart_iff .pgsql).mpr nofun
  have hf : Path.segments "a.0.\\b\x7d" = .ok keys := rfl
  have hg : Path.segments "a\",\"0.\\b\x7d" = .ok others := rfl
  obtain ⟨hdiffer, harray⟩ := selectors_apart hd hapart hf hg
  exact ⟨⟨hd, hapart, hf, hg⟩, hdiffer (by decide), harray rfl⟩

end Dialect

end DocStore
