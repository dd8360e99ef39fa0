import DocStore.Json.Decode
import DocStore.Path.Json
import Mathlib.Tactic.SplitIfs

/-!
JSON paths as the engines read them: a dollar sign and legs, each an index of
ASCII digits in brackets, an identifier after a point, or a key in double
quotes with backslash escapes. The reader looks at one code point at a time.
It reads the path of a field as the field's keys, but for the paths of two
kinds of keys, which it does not read at all: digits that are not all ASCII,
and an identifier with a newline after it.
-/

namespace DocStore.Path

/-- What the reader of a path is in the midst of. -/
inductive Stage where
  /-- Between legs. -/
  | gap
  /-- In the digits of an index. -/
  | index (digits : Text)
  /-- After a point. -/
  | point
  /-- In an identifier. -/
  | plain (key : Text)
  /-- In a quoted key. -/
  | quoted (key : Text)
  /-- In a quoted key, after a backslash. -/
  | escaped (key : Text)
  /-- At something that belongs to no leg. -/
  | stuck
  deriving DecidableEq

namespace Stage

/-- What follows the code point that a leg begins with. -/
def start (c : CodePoint) : Stage :=
  if c = '[' then .index [] else if c = '.' then .point else .stuck

/-- Reads a code point: the legs that are then complete, and what comes next. -/
def step : Stage → CodePoint → List Leg × Stage
  | .gap, c => ([], start c)
  | .index digits, c =>
    if Text.isAsciiDigit c then ([], .index (digits ++ [c]))
    else if c = ']' ∧ digits ≠ [] then ([.index digits], .gap)
    else ([], .stuck)
  | .point, c =>
    if c = '"' then ([], .quoted [])
    else if isKeyStart c then ([], .plain [c])
    else ([], .stuck)
  | .plain key, c =>
    if isKeyPart c then ([], .plain (key ++ [c])) else ([.plain key], start c)
  | .quoted key, c =>
    if c = '"' then ([.quoted key], .gap)
    else if c = '\\' then ([], .escaped key)
    else ([], .quoted (key ++ [c]))
  | .escaped key, c =>
    match Json.simpleEscape? c with
    | some d => ([], .quoted (key ++ [d]))
    | none => ([], .stuck)
  | .stuck, _ => ([], .stuck)

/-- The legs that end where the path ends. -/
def finish : Stage → Option (List Leg)
  | .gap => some []
  | .plain key => some [.plain key]
  | _ => none

/-- The legs that the rest of a path completes. -/
def read : Stage → Text → Option (List Leg)
  | s, [] => s.finish
  | s, c :: t => ((s.step c).2.read t).map ((s.step c).1 ++ ·)

end Stage

/-- The legs of a path. -/
def legs? : Text → Option (List Leg)
  | [] => none
  | c :: t => if c = '$' then Stage.gap.read t else none

/-- The key that a leg leads to. -/
def Leg.key : Leg → Text
  | .index key | .plain key | .quoted key => key

/-- Whether a leg leads into an array. -/
def Leg.isIndex : Leg → Bool
  | .index _ => true
  | .plain _ | .quoted _ => false

/-- A letter or underscore, then letters, digits and underscores. -/
def isIdentifier : Text → Bool
  | [] => false
  | c :: rest => isKeyStart c && rest.all isKeyPart

/-- A key that is taken for an index or an identifier and is neither. -/
def IsMistaken (key : Text) : Prop :=
  key.isDigits ∧ ¬ key.all Text.isAsciiDigit ∨
    ∃ name, isIdentifier name ∧ key = name ++ [CodePoint.ofChar '\n']

theorem escapeQuotes_cons_of_mark {c : CodePoint} (hc : c = '\\' ∨ c = '"') (t : Text) :
    escapeQuotes (c :: t) = CodePoint.ofChar '\\' :: c :: escapeQuotes t := by
  simp [escapeQuotes, hc]

theorem escapeQuotes_cons_of_not_mark {c : CodePoint} (hc : ¬ (c = '\\' ∨ c = '"')) (t : Text) :
    escapeQuotes (c :: t) = c :: escapeQuotes t := by
  simp [escapeQuotes, hc]

theorem Leg.text_index_append (digits rest : Text) : (Leg.index digits).text ++ rest =
    CodePoint.ofChar '[' :: (digits ++ CodePoint.ofChar ']' :: rest) := by
  simp [Leg.text, Text.ofString]

theorem Leg.text_plain_append (key rest : Text) :
    (Leg.plain key).text ++ rest = CodePoint.ofChar '.' :: (key ++ rest) := by
  simp [Leg.text, Text.ofString]

theorem Leg.text_quoted_append (key rest : Text) : (Leg.quoted key).text ++ rest =
    CodePoint.ofChar '.' :: CodePoint.ofChar '"' ::
      (escapeQuotes key ++ CodePoint.ofChar '"' :: rest) := by
  simp [Leg.text, Text.ofString]

namespace Stage

@[simp] theorem read_stuck (t : Text) : stuck.read t = none := by
  induction t with
  | nil => rfl
  | cons c t ih => simpa [read, step] using ih

theorem read_index_digits (u ds rest : Text) (hds : ds.all Text.isAsciiDigit) :
    (index u).read (ds ++ rest) = (index (u ++ ds)).read rest := by
  induction ds generalizing u with
  | nil => simp
  | cons c ds ih =>
    simp only [List.all_cons, Bool.and_eq_true] at hds
    simp [read, step, hds.1, ih _ hds.2]

/-- A digit of another script ends an index that has not been closed. -/
theorem read_index_foreign (u ds rest : Text) (hds : ds.all CodePoint.isDigit)
    (hforeign : ¬ ds.all Text.isAsciiDigit) : (index u).read (ds ++ rest) = none := by
  induction ds generalizing u with
  | nil => exact absurd rfl hforeign
  | cons c ds ih =>
    simp only [List.all_cons, Bool.and_eq_true] at hds hforeign
    rw [List.cons_append, read, step]
    split_ifs with hc hclose
    · simp [ih _ hds.2 fun h => hforeign ⟨hc, h⟩]
    · obtain ⟨rfl, -⟩ := hclose
      exact absurd hds.1 (by decide)
    · simp

theorem read_plain_parts (u k rest : Text) (hk : k.all isKeyPart) :
    (plain u).read (k ++ rest) = (plain (u ++ k)).read rest := by
  induction k generalizing u with
  | nil => simp
  | cons c k ih =>
    simp only [List.all_cons, Bool.and_eq_true] at hk
    simp [read, step, hk.1, ih _ hk.2]

theorem read_quoted_escaped (u k rest : Text) :
    (quoted u).read (escapeQuotes k ++ rest) = (quoted (u ++ k)).read rest := by
  induction k generalizing u with
  | nil => simp [escapeQuotes]
  | cons c k ih =>
    by_cases hc : c = '\\' ∨ c = '"'
    · have hslash : ('\\' : CodePoint) ≠ '"' := by decide
      have hescape : Json.simpleEscape? c = some c := by
        obtain rfl | rfl := hc <;> decide
      simp [escapeQuotes_cons_of_mark hc, read, step, hslash, hescape, ih]
    · obtain ⟨hslash, hquote⟩ := not_or.mp hc
      simp [escapeQuotes_cons_of_not_mark hc, read, step, hslash, hquote, ih]

/-- Whatever leg begins next, what may end here ends here. -/
theorem step_of_finish {s : Stage} {ls : List Leg} (hs : s.finish = some ls) {c : CodePoint}
    (hc : c = '[' ∨ c = '.') : s.step c = (ls, start c) := by
  cases s with
  | gap => cases hs; rfl
  | plain key =>
    cases hs
    obtain rfl | rfl := hc <;> rfl
  | _ => cases hs

end Stage

@[simp] theorem dropNewline_concat (t : Text) (c : CodePoint) :
    dropNewline (t ++ [c]) = if c = '\n' then t else t ++ [c] := by
  simp [dropNewline]

/-- What passes for a plain key is an identifier, perhaps with a newline after it. -/
theorem isPlainKey_iff (key : Text) :
    isPlainKey key ↔
      isIdentifier key ∨ ∃ name, isIdentifier name ∧ key = name ++ [CodePoint.ofChar '\n'] := by
  have hdrop : isPlainKey key = isIdentifier (dropNewline key) := rfl
  rw [hdrop]
  obtain rfl | ⟨t, c, rfl⟩ := key.eq_nil_or_concat
  · simp [dropNewline, isIdentifier]
  · by_cases hc : c = '\n'
    · subst hc
      have hnewline : isIdentifier (t ++ [CodePoint.ofChar '\n']) = false := by
        cases t with
        | nil => rfl
        | cons d t => simp [isIdentifier, show isKeyPart '\n' = false from rfl]
      simp [hnewline]
    · simp [hc]

namespace Stage

section Leg

variable {s : Stage} {ls : List Leg} (hs : s.finish = some ls)
include hs

theorem read_bracket (t : Text) : s.read ('[' :: t) = ((index []).read t).map (ls ++ ·) := by
  rw [read, step_of_finish hs (.inl rfl)]
  rfl

theorem read_point (t : Text) : s.read ('.' :: t) = (point.read t).map (ls ++ ·) := by
  rw [read, step_of_finish hs (.inr rfl)]
  rfl

theorem read_index {ds : Text} (hne : ds ≠ []) (hds : ds.all Text.isAsciiDigit) (rest : Text) :
    s.read ((Leg.index ds).text ++ rest) = (gap.read rest).map (ls ++ [.index ds] ++ ·) := by
  have hclose : step (index ds) ']' = ([.index ds], gap) := by
    simp [step, hne, show Text.isAsciiDigit ']' = false from rfl]
  rw [Leg.text_index_append, read_bracket hs, read_index_digits _ _ _ hds, List.nil_append, read, hclose]
  simp [Function.comp_def]

theorem read_plain {key : Text} (hkey : isIdentifier key) (rest : Text) :
    s.read ((Leg.plain key).text ++ rest) = ((plain key).read rest).map (ls ++ ·) := by
  cases key with
  | nil => cases hkey
  | cons c k =>
    simp only [isIdentifier, Bool.and_eq_true] at hkey
    have hquote : c ≠ '"' := by
      rintro rfl
      exact absurd hkey.1 (by decide)
    have hopen : step point c = ([], plain [c]) := by simp [step, hquote, hkey.1]
    rw [Leg.text_plain_append, read_point hs, List.cons_append, read, hopen, read_plain_parts _ _ _ hkey.2]
    simp

theorem read_quoted (key rest : Text) :
    s.read ((Leg.quoted key).text ++ rest) = (gap.read rest).map (ls ++ [.quoted key] ++ ·) := by
  have hopen : step point '"' = ([], quoted []) := rfl
  have hclose : step (quoted key) '"' = ([.quoted key], gap) := rfl
  rw [Leg.text_quoted_append, read_point hs, read, hopen, read_quoted_escaped, List.nil_append, read, hclose]
  simp [Function.comp_def]

/-- From where a leg may end, the leg of a key is read to where a leg may end. -/
theorem read_leg {key : Text} (hkey : ¬ IsMistaken key) :
    ∃ (before : List Leg) (s' : Stage) (after : List Leg), s'.finish = some after ∧
      before ++ after = ls ++ [Leg.ofSegment key] ∧
      ∀ rest, s.read ((Leg.ofSegment key).text ++ rest) = (s'.read rest).map (before ++ ·) := by
  unfold Leg.ofSegment
  obtain ⟨hascii, hname⟩ := not_or.mp hkey
  split_ifs with hdigits hplain
  · have hne : key ≠ [] := by
      rintro rfl
      cases hdigits
    have hall : key.all Text.isAsciiDigit := by simpa [hdigits] using hascii
    exact ⟨_, gap, [], rfl, by simp, read_index hs hne hall⟩
  -- Only what follows an identifier ends it, so that its leg is still to come.
  · have hident : isIdentifier key := ((isPlainKey_iff key).mp hplain).resolve_right hname
    exact ⟨_, plain key, [.plain key], rfl, rfl, read_plain hs hident⟩
  · exact ⟨_, gap, [], rfl, by simp, read_quoted hs key⟩

theorem read_mistaken {key : Text} (hkey : IsMistaken key) (rest : Text) :
    s.read ((Leg.ofSegment key).text ++ rest) = none := by
  obtain ⟨hdigits, hascii⟩ | ⟨name, hname, rfl⟩ := hkey
  · have htext : (Leg.ofSegment key).text ++ rest =
        CodePoint.ofChar '[' :: (key ++ CodePoint.ofChar ']' :: rest) := by
      simp [Leg.ofSegment, hdigits, Leg.text, Text.ofString]
    simp only [Text.isDigits, Bool.and_eq_true] at hdigits
    rw [htext, read_bracket hs, read_index_foreign _ _ _ hdigits.2 hascii]
    rfl
  · have hdigits : Text.isDigits (name ++ [CodePoint.ofChar '\n']) = false := by
      simp [Text.isDigits, show CodePoint.isDigit '\n' = false by decide]
    have hplain := (isPlainKey_iff _).mpr (.inr ⟨name, hname, rfl⟩)
    have htext : (Leg.ofSegment (name ++ [CodePoint.ofChar '\n'])).text ++ rest =
        (Leg.plain name).text ++ CodePoint.ofChar '\n' :: rest := by
      simp [Leg.ofSegment, hdigits, hplain, Leg.text]
    have hbreak : step (plain name) '\n' = ([.plain name], stuck) := rfl
    rw [htext, read_plain hs hname, read, hbreak]
    simp

end Leg

/-- The legs of keys are read as they were written, from where a leg may end. -/
theorem read_legs {s : Stage} {ls : List Leg} (hs : s.finish = some ls) {keys : List Text}
    (hkeys : ∀ key ∈ keys, ¬ IsMistaken key) :
    s.read (keys.flatMap fun key => (Leg.ofSegment key).text) =
      some (ls ++ keys.map Leg.ofSegment) := by
  induction keys generalizing s ls with
  | nil => simpa [read] using hs
  | cons key keys ih =>
    obtain ⟨before, s', after, hs', hlegs, hread⟩ := read_leg hs (hkeys key (by simp))
    have hrest := ih hs' fun k hk => hkeys k (by simp [hk])
    rw [List.flatMap_cons, hread, hrest, Option.map_some, ← List.append_assoc, hlegs]
    simp

/-- One mistaken key is enough for a path that is not read. -/
theorem read_legs_mistaken {s : Stage} {ls : List Leg} (hs : s.finish = some ls) {keys : List Text}
    (hkeys : ∃ key ∈ keys, IsMistaken key) :
    s.read (keys.flatMap fun key => (Leg.ofSegment key).text) = none := by
  induction keys generalizing s ls with
  | nil => simp at hkeys
  | cons key keys ih =>
    rw [List.flatMap_cons]
    by_cases hkey : IsMistaken key
    · exact read_mistaken hs hkey _
    · obtain ⟨before, s', after, hs', -, hread⟩ := read_leg hs hkey
      have hrest : ∃ k ∈ keys, IsMistaken k := by simpa [hkey] using hkeys
      rw [hread, ih hs' hrest]
      rfl

end Stage

/-- The leg of a key leads to it, and into an array if it is all digits. -/
theorem Leg.ofSegment_key (key : Text) :
    (Leg.ofSegment key).key = key ∧ (Leg.ofSegment key).isIndex = key.isDigits := by
  unfold Leg.ofSegment
  split_ifs with hdigits hplain
  · exact ⟨rfl, hdigits.symm⟩
  · exact ⟨rfl, (Bool.eq_false_iff.mpr hdigits).symm⟩
  · exact ⟨rfl, (Bool.eq_false_iff.mpr hdigits).symm⟩

theorem json_of_segments {field : Text} {keys : List Text} (h : segments field = .ok keys) :
    json field = .ok (CodePoint.ofChar '$' :: keys.flatMap fun key => (Leg.ofSegment key).text) := by
  rw [json, h]
  rfl

theorem legs?_dollar (t : Text) : legs? (CodePoint.ofChar '$' :: t) = Stage.gap.read t := by
  simp [legs?]

/-- Every field that has keys has a path. The path is read unless one of the keys is mistaken, and
then as a leg for each key, into an array for the keys of digits. -/
theorem json_denotes {field : Text} {keys : List Text} (h : segments field = .ok keys) :
    ∃ path, json field = .ok path ∧
      ((∃ legs, legs? path = some legs) ↔ ∀ key ∈ keys, ¬ IsMistaken key) ∧
      ∀ legs, legs? path = some legs →
        legs.map Leg.key = keys ∧ legs.map Leg.isIndex = keys.map Text.isDigits := by
  refine ⟨_, json_of_segments h, ?_⟩
  rw [legs?_dollar]
  by_cases hkeys : ∃ key ∈ keys, IsMistaken key
  · rw [Stage.read_legs_mistaken rfl hkeys]
    simpa using hkeys
  · have hgood : ∀ key ∈ keys, ¬ IsMistaken key := by simpa using hkeys
    rw [Stage.read_legs rfl hgood]
    refine ⟨by simpa using hgood, ?_⟩
    rintro _ ⟨rfl⟩
    simp [Leg.ofSegment_key, Function.comp_def]

/-- A key with a quote in it, an index and an identifier, of which none is mistaken. -/
theorem json_denotes_quoted :
    let keys : List Text := ["a\"b", "0", "c"]
    segments "a\"b.0.c" = .ok keys ∧
      ∃ path, json "a\"b.0.c" = .ok path ∧
        ((∃ legs, legs? path = some legs) ↔ ∀ key ∈ keys, ¬ IsMistaken key) ∧
        ∀ legs, legs? path = some legs →
          legs.map Leg.key = keys ∧ legs.map Leg.isIndex = keys.map Text.isDigits :=
  ⟨rfl, json_denotes rfl⟩

/-- A newline after an identifier passes for the end of the key, and the path is not read. -/
theorem not_json_denotes_newline :
    ¬ ∀ field keys path, segments field = .ok keys → json field = .ok path →
      ∃ legs, legs? path = some legs := by
  intro h
  obtain ⟨legs, hlegs⟩ := h "a\n" ["a\n"] "$.a\n" rfl rfl
  have hnone : legs? "$.a\n" = none := by decide
  rw [hnone] at hlegs
  cases hlegs

-- A superscript passes for a digit of an index, and the path is not read either.
example : (json "²").toOption = some "$[²]" ∧ legs? "$[²]" = none := by decide

end DocStore.Path
