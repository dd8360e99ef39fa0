import DocStore.Proofs.Sql.Outline
import DocStore.Sql.Identifier
import DocStore.Sql.Quoting

/-!
What quoting writes is what reading takes for one quotation, of exactly the
text that was quoted: names with their mark doubled, literals with the quote
doubled, and literals with backslash escapes.
-/

namespace DocStore

namespace Lexis

variable (x : Lexis)

/-- Inside a quotation without escapes, a text with its marks doubled stands for itself. -/
theorem scan_doubled {q : Quotation} (hq : (x.hasEscapes && !q.isName) = false) (u t rest : Text) :
    x.scan (.inside q u) (t.replace q.mark [q.mark, q.mark] ++ rest) =
      x.scan (.inside q (u ++ t)) rest := by
  induction t generalizing u with
  | nil => simp
  | cons c t ih =>
    have hcons : Text.replace (c :: t) q.mark [q.mark, q.mark] =
        (if c = q.mark then [q.mark, q.mark] else [c]) ++ Text.replace t q.mark [q.mark, q.mark] := rfl
    rw [hcons]
    by_cases hc : c = q.mark
    · subst hc
      have := ih (u ++ [q.mark])
      simpa [scan, step] using this
    · have := ih (u ++ [c])
      simpa [scan, step, hc, hq] using this

/-- A text with its marks doubled, between two of them, is one quotation of the text. -/
theorem lex_doubled {m : CodePoint} {q : Quotation} (hm : x.quotation? m = some q)
    (hq : (x.hasEscapes && !q.isName) = false) (t : Text) :
    x.lex (m :: t.replace m [m, m] ++ [m]) = some [q.token t] := by
  obtain rfl := x.mark_of_quotation? hm
  have hstart : x.step .gap q.mark = ([], .inside q []) := by simp [step, start, hm]
  have hinside := x.scan_doubled hq [] t [q.mark]
  simp only [List.nil_append, scan, step, if_true] at hinside
  simp [lex, scan, hstart, hinside, Mode.flush]

theorem step_escape {q : Quotation} (hq : (x.hasEscapes && !q.isName) = true)
    (hmark : q.mark = '\'') (u rest : Text) (c : CodePoint) :
    x.scan (.inside q u) (backslashEscape c ++ rest) = x.scan (.inside q (u ++ [c])) rest := by
  have hslash : ('\\' : CodePoint) ≠ q.mark := by rw [hmark]; decide
  have hescape (e : CodePoint) (he : unescape e = [c]) :
      x.scan (.inside q u) ([('\\' : CodePoint), e] ++ rest) = x.scan (.inside q (u ++ [c])) rest := by
    simp [scan, step, hslash, hq, he]
  unfold backslashEscape
  split_ifs with hn hr hs
  · subst hn; exact hescape 'n' (by decide)
  · subst hr; exact hescape 'r' (by decide)
  · refine hescape c ?_
    obtain rfl | rfl | rfl | h := hs
    · decide
    · decide
    · decide
    · obtain rfl : c = CodePoint.ofNat 0x1a := CodePoint.ext h
      decide
  · simp only [not_or] at hs
    have hc : c ≠ q.mark := by rw [hmark]; exact hs.2.1
    simp [scan, step, hc, hs.1]

theorem scan_escaped {q : Quotation} (hq : (x.hasEscapes && !q.isName) = true)
    (hmark : q.mark = '\'') (u t rest : Text) :
    x.scan (.inside q u) (t.flatMap backslashEscape ++ rest) =
      x.scan (.inside q (u ++ t)) rest := by
  induction t generalizing u with
  | nil => simp
  | cons c t ih =>
    rw [List.flatMap_cons, List.append_assoc, x.step_escape hq hmark, ih]
    simp

/-- A text with backslash escapes, between two quotes, is one literal of the text. -/
theorem lex_backslashQuoted (hx : x.hasEscapes = true) (hm : x.quotation? '\'' = some ⟨'\'', false⟩)
    (t : Text) : x.lex (backslashQuoted t) = some [.literal t] := by
  have hstart : x.step .gap '\'' = ([], .inside ⟨'\'', false⟩ []) := by simp [step, start, hm]
  have hinside := x.scan_escaped (q := ⟨'\'', false⟩) (by simp [hx]) rfl [] t ['\'']
  simp only [List.nil_append, scan, step, if_true] at hinside
  have : backslashQuoted t = ('\'' : CodePoint) :: (t.flatMap backslashEscape ++ [('\'' : CodePoint)]) := rfl
  simp [this, lex, scan, hstart, hinside, Mode.flush, Quotation.token]

end Lexis

namespace Engine

/-- A quoted name is read as the name, by the rules of its engine. -/
theorem lex_quoteName (e : Engine) (b : Bool) (name : Text) :
    (e.lexisWith b).lex (quoteName e.nameMark name) = some [.name name] := by
  have hmark : (e.lexisWith b).quotation? e.nameMark = some ⟨e.nameMark, true⟩ := by
    cases e <;> rfl
  exact Lexis.lex_doubled _ hmark (by simp) name

/-- A literal with its quotes doubled is read as the text, where there are no escapes. -/
theorem lex_doubleQuoted (e : Engine) (t : Text) :
    (e.lexisWith false).lex (doubleQuoted t) = some [.literal t] := by
  have hmark : (e.lexisWith false).quotation? doubleQuoted.quoteMark =
      some ⟨doubleQuoted.quoteMark, false⟩ := by cases e <;> rfl
  exact Lexis.lex_doubled _ hmark (by cases e <;> rfl) t

/-- A text that has a UTF-8 form can be quoted by every engine. -/
theorem exists_quote (e : Engine) {t : Text} (ht : t.isEncodable = true) :
    ∃ l, e.quote t = .ok l := by
  cases e with
  | mysql => exact ⟨_, rfl⟩
  | pgsql => exact ⟨_, rfl⟩
  | sqlite => exact ⟨doubleQuoted (beforeNul t), by rw [quote, if_pos ht]⟩

/-- What an engine's connection quotes is one literal by the engine's rules. It denotes the text,
of which one engine takes no more than what stands before a NUL. -/
theorem lex_quote {e : Engine} {t l : Text} (h : e.quote t = .ok l) :
    e.lexis.lex l = some [.literal (if e = .sqlite then beforeNul t else t)] := by
  cases e with
  | mysql =>
    cases h
    exact Lexis.lex_backslashQuoted _ rfl rfl t
  | pgsql =>
    cases h
    exact lex_doubleQuoted .pgsql t
  | sqlite =>
    simp only [quote] at h
    split at h
    · cases h
      exact lex_doubleQuoted .sqlite (beforeNul t)
    · cases h

end Engine

end DocStore
