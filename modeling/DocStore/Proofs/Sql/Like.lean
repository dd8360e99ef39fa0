import DocStore.Sql.Like
import Mathlib.Data.List.Infix

/-!
Patterns of `LIKE` as the engines read them. A percent sign stands for any row of
code points, an underscore for any one, and a backslash makes the code point
after it stand for itself, so that none may be the last. The pattern of a text
that is searched for fits exactly the texts that include it, whatever wildcards
and backslashes are in it.
-/

namespace DocStore.Like

/-- What a pattern consists of. -/
inductive Sign where
  /-- Any row of code points, the empty one too. -/
  | row
  /-- Any one code point. -/
  | one
  /-- A code point that stands for itself. -/
  | exactly (c : CodePoint)
  deriving DecidableEq

/-- The sign that a code point without an escape is. -/
def Sign.ofCodePoint (c : CodePoint) : Sign :=
  if c = '%' then .row else if c = '_' then .one else .exactly c

/-- The signs of a pattern; one that ends in an escape is none. -/
def signs? : Text → Option (List Sign)
  | [] => some []
  | c :: t =>
    if c = '\\' then
      match t with
      | [] => none
      | d :: t => (signs? t).map (.exactly d :: ·)
    else (signs? t).map (.ofCodePoint c :: ·)

/-- Whether a text fits signs. A row may take in any beginning of what is left. -/
def fits : List Sign → Text → Bool
  | [], s => s.isEmpty
  | .row :: signs, s => s.tails.any (fits signs)
  | .one :: signs, s =>
    match s with
    | [] => false
    | _ :: s => fits signs s
  | .exactly c :: signs, s =>
    match s with
    | [] => false
    | d :: s => c = d && fits signs s

/-- A text matches a pattern. -/
def Matches (pattern s : Text) : Prop := ∃ signs, signs? pattern = some signs ∧ fits signs s = true

/-- The escapes may be put in one kind after another, if that of the backslash comes first: it would
escape the backslashes of the others. -/
theorem containing_eq_replace (t : Text) :
    containing t = "%" ++ ((t.replace '\\' "\\\\").replace '%' "\\%").replace '_' "\\_" ++ "%" := by
  have hescape (c : CodePoint) :
      escape c = (Text.replace (Text.replace [c] '\\' "\\\\") '%' "\\%").replace '_' "\\_" := by
    by_cases hslash : c = '\\'
    · subst hslash; decide
    by_cases hrow : c = '%'
    · subst hrow; decide
    by_cases hone : c = '_'
    · subst hone; decide
    simp [escape, Text.replace, hslash, hrow, hone]
  have hpiece (t : Text) :
      t.flatMap escape = ((t.replace '\\' "\\\\").replace '%' "\\%").replace '_' "\\_" := by
    induction t with
    | nil => rfl
    | cons c t ih =>
      rw [List.flatMap_cons, hescape, ih, ← Text.replace_append, ← Text.replace_append,
        ← Text.replace_append, List.singleton_append]
  rw [containing, hpiece]

theorem signs?_cons {c : CodePoint} (h : c ≠ '\\') (t : Text) :
    signs? (c :: t) = (signs? t).map (.ofCodePoint c :: ·) := by
  cases t <;> simp [signs?, h]

/-- An escaped code point stands for itself. -/
theorem signs?_escape_append (c : CodePoint) (rest : Text) :
    signs? (escape c ++ rest) = (signs? rest).map (.exactly c :: ·) := by
  unfold escape
  split
  next => simp [signs?]
  next hplain =>
    obtain ⟨hslash, hrow, hone⟩ : c ≠ '\\' ∧ c ≠ '%' ∧ c ≠ '_' := by simpa using hplain
    rw [List.singleton_append, signs?_cons hslash, Sign.ofCodePoint, if_neg hrow, if_neg hone]

theorem signs?_escaped_append (t rest : Text) :
    signs? (t.flatMap escape ++ rest) = (signs? rest).map (t.map Sign.exactly ++ ·) := by
  induction t with
  | nil => simp
  | cons c t ih =>
    rw [List.flatMap_cons, List.append_assoc, signs?_escape_append, ih, Option.map_map]
    rfl

theorem signs?_containing (t : Text) :
    signs? (containing t) = some (.row :: (t.map Sign.exactly ++ [.row])) := by
  have hopen (rest : Text) : signs? (CodePoint.ofChar '%' :: rest) = (signs? rest).map (.row :: ·) :=
    signs?_cons (by decide) rest
  have htext : containing t = CodePoint.ofChar '%' :: (t.flatMap escape ++ [CodePoint.ofChar '%']) := rfl
  rw [htext, hopen, signs?_escaped_append, hopen]
  rfl

-- Without its escape a backslash at the end leaves no pattern.
example : signs? "%a\\%" ≠ none ∧ signs? "%a\\" = none := by decide

/-- Code points and a row after them fit whatever begins with the code points. -/
theorem fits_exactly_row_iff (t s : Text) :
    fits (t.map Sign.exactly ++ [.row]) s = true ↔ t <+: s := by
  induction t generalizing s with
  | nil =>
    refine iff_of_true ?_ List.nil_prefix
    exact List.any_eq_true.mpr ⟨[], (List.mem_tails _ _).mpr List.nil_suffix, rfl⟩
  | cons c t ih =>
    cases s with
    | nil => simp [fits]
    | cons d s => simp [fits, ih, List.cons_prefix_cons]

theorem fits_row_iff (signs : List Sign) (s : Text) :
    fits (.row :: signs) s = true ↔ ∃ rest, rest <:+ s ∧ fits signs rest = true := by
  simp only [fits, List.any_eq_true, List.mem_tails]

/-- The pattern of a text is matched by exactly the texts that include it. -/
theorem matches_containing_iff (t s : Text) : Matches (containing t) s ↔ t <:+: s := by
  have hfits : Matches (containing t) s ↔
      fits (.row :: (t.map Sign.exactly ++ [.row])) s = true := by
    simp [Matches, signs?_containing]
  rw [hfits, fits_row_iff, List.infix_iff_prefix_suffix]
  simp only [fits_exactly_row_iff, and_comm]

end DocStore.Like
