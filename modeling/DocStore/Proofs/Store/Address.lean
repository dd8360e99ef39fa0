import DocStore.Proofs.Dialect.Constant
import DocStore.Proofs.Store.Statement
import Mathlib.Data.List.TakeWhile

/-!
Literals as addresses. A document is written over and deleted by the literal of
its id, so that two ids had better not share one. What quoting writes is one
literal, of exactly the text that was quoted; only one engine ends a text at its
first NUL. Hence ids that are spelled differently have different literals, and
so have lists of them.
-/

namespace DocStore

/-- Whether quoting keeps a text whole: one engine takes no more than what stands before a NUL. -/
def Engine.Keeps (e : Engine) (t : Text) : Prop := e = .sqlite → CodePoint.ofNat 0 ∉ t

/-- Whether quoting keeps whatever a value says. -/
def Engine.KeepsValue (e : Engine) (v : Value) : Prop := ∀ t, v = .str t → e.Keeps t

theorem beforeNul_eq_self_iff (t : Text) : beforeNul t = t ↔ CodePoint.ofNat 0 ∉ t := by
  have hnul (c : CodePoint) : c.val = 0 ↔ c = CodePoint.ofNat 0 :=
    ⟨fun h => CodePoint.ext h, fun h => by rw [h]; rfl⟩
  rw [beforeNul, List.takeWhile_eq_self_iff]
  simp only [ne_eq, hnul, decide_not, Bool.not_eq_true', decide_eq_false_iff_not]
  exact ⟨fun h hmem => h _ hmem rfl, fun h c hc hnul => h (hnul ▸ hc)⟩

/-- What some tokens spell: a literal the text that it denotes, and all else itself. -/
def Token.spelled : List Token → Bool × Text
  | [.literal t] => (true, t)
  | ts => (false, ts.flatMap Token.text)

theorem Sql.IsBare.spelled {x : Lexis} {s : Sql} {t : Text} (h : s.IsBare x t) :
    Token.spelled (s.tokens x) = (false, t) := by
  unfold Token.spelled
  split
  next u hu => exact absurd hu (h.ne_literal u)
  next => rw [h.text]

namespace Engine

/-- What an engine quotes is one literal, of the very text exactly when it keeps that. -/
theorem lex_quote_iff {e : Engine} {t l : Text} (h : e.quote t = .ok l) :
    (∃ u, e.lexis.lex l = some [.literal u]) ∧
      (e.lexis.lex l = some [.literal t] ↔ e.Keeps t) := by
  have hlex := lex_quote h
  refine ⟨⟨_, hlex⟩, ?_⟩
  rw [hlex, Keeps]
  by_cases he : e = .sqlite
  · simp [he, beforeNul_eq_self_iff]
  · simp [he]

end Engine

namespace Dialect

/-- Only texts are ever quoted where quoting may not keep a text. -/
theorem keeps_of_spelling {d : Dialect} {v : Value} {t : Text} (hv : d.engine.KeepsValue v)
    (h : d.spelling v = some (true, t)) : d.engine.Keeps t := by
  have hbare : d.hasBareNumbers = false → d.engine.Keeps t := by
    intro hbare hengine
    rw [hasBareNumbers, hengine] at hbare
    cases hbare
  cases v with
  | str u =>
    cases h
    exact hv t rfl
  | bool c =>
    cases hb : d.hasBareNumbers with
    | false => exact hbare hb
    | true => simp [spelling, hb] at h
  | int n | float n =>
    cases hb : d.hasBareNumbers with
    | false => exact hbare hb
    | true => simp [spelling, hb] at h
  | _ => cases h

end Dialect

namespace Store

variable {s : Store}

/-- Where quoting keeps what a scalar says, the tokens of its literal spell the scalar. -/
theorem spelling_of_literal {v : Value} {l : Sql} (hv : s.engine.KeepsValue v)
    (h : s.dialect.literal v = .ok l) :
    s.dialect.spelling v = some (Token.spelled (l.tokens s.engine.lexis)) := by
  obtain ⟨isQuoted, t, hspelling, hl⟩ := Dialect.literal_spelled s.engine.hasEscapes h
  rw [hspelling]
  cases isQuoted with
  | false => exact congrArg some (Sql.IsBare.spelled hl).symm
  | true =>
    have hkeeps : s.engine.Keeps t := Dialect.keeps_of_spelling (d := s.dialect) hv hspelling
    obtain ⟨q, hq, hl⟩ := exists_of_bind_ok hl
    cases hl
    have hlex := (Engine.lex_quote_iff (s.quote_ok hq)).2.mpr hkeeps
    have htokens : Sql.tokens s.engine.lexis [.literal q] = [.literal t] := by
      simp [Sql.tokens, Piece.tokens, Piece.text, hlex]
    rw [htokens]
    rfl

theorem literal_balanced {v : Value} {l : Sql} (h : s.dialect.literal v = .ok l) :
    l.IsBalanced s.engine.lexis true :=
  ((Dialect.literal_units s.dialect_quotedBy (.same v)) l l h h).left.toIsBalanced

/-- Where quoting keeps what two scalars say, they have one literal only if they are spelled alike. -/
theorem spelling_injective {v w : Value} {l m : Sql} (hv : s.engine.KeepsValue v)
    (hw : s.engine.KeepsValue w) (hl : s.dialect.literal v = .ok l)
    (hm : s.dialect.literal w = .ok m) (heq : l.render = m.render) :
    s.dialect.spelling v = s.dialect.spelling w := by
  have hlex := (literal_balanced hl).lex.1
  rw [heq, (literal_balanced hm).lex.1, Option.some.injEq] at hlex
  rw [spelling_of_literal hv hl, spelling_of_literal hw hm, hlex]

/-- The items that the literals of some scalars are, and how they spell these. -/
theorem literals_items {vs : List Value} {ls : Sql} (hvs : ∀ v ∈ vs, s.engine.KeepsValue v)
    (h : s.dialect.literals vs = .ok ls) :
    ∃ items, s.engine.lexis.lex ls.render = some (Comparison.listed items) ∧
      (∀ ts ∈ items, Comparison.IsItem ts) ∧
      vs.map s.dialect.spelling = items.map fun ts => some (Token.spelled ts) := by
  obtain ⟨ms, hms, hls⟩ := exists_of_bind_ok h
  cases hls
  have hbalanced : ∀ m ∈ ms, m.IsBalanced s.engine.lexis true := by
    intro m hm
    obtain ⟨v, -, hv⟩ := exists_of_mem_mapM_ok hms hm
    exact literal_balanced hv
  have hjoined := Sql.IsBalanced.join (Sql.walkCode_comma s.engine s.engine.hasEscapes) hbalanced
  refine ⟨ms.map (Sql.tokens s.engine.lexis), ?_, ?_, ?_⟩
  · exact hjoined.lex.1.trans (congrArg some (Dialect.tokens_commas (d := s.dialect) ms))
  · exact Dialect.forall_isItem s.dialect_quotedBy hms
  · have hforall := forall₂_of_mapM_ok hms
    -- The induction is on how literals stand beside their values, whatever is made of them together.
    clear h hms hbalanced hjoined
    induction hforall with
    | nil => rfl
    | cons hv _ ih =>
      obtain ⟨hkeeps, hkeepsAll⟩ := List.forall_mem_cons.mp hvs
      simp only [List.map_cons]
      rw [ih hkeepsAll, spelling_of_literal hkeeps hv]

/-- Where quoting keeps what scalars say, lists of them have one text only if they are spelled alike. -/
theorem spellings_injective {vs ws : List Value} {ls ms : Sql} (hvs : ∀ v ∈ vs, s.engine.KeepsValue v)
    (hws : ∀ w ∈ ws, s.engine.KeepsValue w) (hls : s.dialect.literals vs = .ok ls)
    (hms : s.dialect.literals ws = .ok ms) (heq : ls.render = ms.render) :
    vs.map s.dialect.spelling = ws.map s.dialect.spelling := by
  obtain ⟨items, hlex, hitems, hspelling⟩ := literals_items hvs hls
  obtain ⟨items', hlex', hitems', hspelling'⟩ := literals_items hws hms
  rw [heq, hlex', Option.some.injEq] at hlex
  rw [hspelling, hspelling', Comparison.listed_injective hitems' hitems hlex]

/-- What an engine quotes is one literal, and denotes the text that was quoted if quoting keeps that.
Where it keeps what ids say, the literals that a document is written over by are the same only if
the ids are spelled alike, and so are the lists of literals that documents are deleted by. -/
theorem literal_denotes (s : Store) :
    (∀ t l, s.engine.quote t = .ok l →
      (∃ u, s.engine.lexis.lex l = some [.literal u]) ∧
        (s.engine.lexis.lex l = some [.literal t] ↔ s.engine.Keeps t)) ∧
    (∀ v w l m, s.engine.KeepsValue v → s.engine.KeepsValue w →
      s.dialect.literal v = .ok l → s.dialect.literal w = .ok m → l.render = m.render →
      s.dialect.spelling v = s.dialect.spelling w) ∧
    ∀ vs ws ls ms, (∀ v ∈ vs, s.engine.KeepsValue v) → (∀ w ∈ ws, s.engine.KeepsValue w) →
      s.dialect.literals vs = .ok ls → s.dialect.literals ws = .ok ms → ls.render = ms.render →
      vs.map s.dialect.spelling = ws.map s.dialect.spelling :=
  ⟨fun _ _ h => Engine.lex_quote_iff h, fun _ _ _ _ hv hw hl hm heq => spelling_injective hv hw hl hm heq,
    fun _ _ _ _ hvs hws hls hms heq => spellings_injective hvs hws hls hms heq⟩

/-- A quote in an id, or a backslash before one, does not make it another one. -/
theorem literal_denotes_quotes :
    ∃ l m, (ready .mysql).dialect.literal (.str "\\'") = .ok l ∧
      (ready .mysql).dialect.literal (.str "'") = .ok m ∧ l.render ≠ m.render := by
  refine ⟨_, _, rfl, rfl, fun heq => ?_⟩
  have hkeeps (t : Text) : Engine.mysql.KeepsValue (.str t) := by
    rintro u - ⟨⟩
  have hspelling := (literal_denotes (ready .mysql)).2.1 (.str "\\'") (.str "'") _ _ (hkeeps _)
    (hkeeps _) rfl rfl heq
  exact absurd hspelling (by decide)

/-- Two ids that differ after a NUL have one literal, which denotes neither of them. -/
theorem not_literal_denotes_nul :
    ¬ ((∀ t l, Engine.sqlite.quote t = .ok l → Engine.sqlite.lexis.lex l = some [.literal t]) ∨
      ∀ t u l m, (ready .sqlite).dialect.literal (.str t) = .ok l →
        (ready .sqlite).dialect.literal (.str u) = .ok m → l.render = m.render → t = u) := by
  rintro (hdenotes | hdistinct)
  · have hlex := hdenotes "a\x00b" "'a'" rfl
    exact absurd hlex (by decide)
  · have heq := hdistinct "a\x00b" "a\x00c" _ _ rfl rfl rfl
    exact absurd heq (by decide)

end Store

end DocStore
