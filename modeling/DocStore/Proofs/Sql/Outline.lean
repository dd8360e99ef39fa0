import DocStore.Proofs.Sql.Token
import DocStore.Sql.Piece

/-!
The outline of SQL. Rows of pieces are gone through piece by piece, without a
look at what literals, names and numbers hold, to see that no piece runs into
the next one and how the parentheses stand. What the outline finds, reading
the rendered text finds too.
-/

namespace DocStore

/-- An upper-case letter for an ASCII letter. -/
def CodePoint.asciiUpper (c : CodePoint) : CodePoint :=
  if 0x61 ≤ c.val ∧ c.val ≤ 0x7a then CodePoint.ofNat (c.val - 0x20) else c

namespace Token

/-- Whether a token is a keyword, in either case of letters. -/
def isKeyword (keyword : Text) : Token → Bool
  | .word t => t.map CodePoint.asciiUpper = keyword
  | _ => false

/-- Whether a token joins conditions. -/
def isJunction (t : Token) : Bool := t.isKeyword "AND" || t.isKeyword "OR"

/-- Whether a token negates a condition. -/
def isNegation (t : Token) : Bool := t.isKeyword "NOT"

/-- Whether a token neither opens nor closes anything, nor joins or negates conditions. -/
def isInert (t : Token) : Bool :=
  !t.isJunction && !t.isNegation && t ≠ .sign '(' && t ≠ .sign ')'

/-- How many parentheses are open after a token; none closes that was not opened. -/
def depthAfter (k : Nat) : Token → Option Nat
  | .sign c =>
    if c = '(' then some (k + 1)
    else if c = ')' then if k = 0 then none else some (k - 1)
    else some k
  | _ => some k

/-- How many parentheses are open after some tokens. A strict count fails at a junction outside of
all parentheses. -/
def nest (isStrict : Bool) : Nat → List Token → Option Nat
  | k, [] => some k
  | k, t :: ts =>
    if k = 0 ∧ isStrict ∧ t.isJunction then none
    else (t.depthAfter k).bind (nest isStrict · ts)

theorem nest_append (b : Bool) (k : Nat) (ts us : List Token) :
    nest b k (ts ++ us) = (nest b k ts).bind (nest b · us) := by
  induction ts generalizing k with
  | nil => rfl
  | cons t ts ih =>
    simp only [List.cons_append, nest]
    split
    · rfl
    · simp only [ih, Option.bind_assoc]

theorem depthAfter_add {i j : Nat} {t : Token} (h : t.depthAfter i = some j) (k : Nat) :
    t.depthAfter (i + k) = some (j + k) := by
  cases t with
  | sign c =>
    simp only [depthAfter] at h ⊢
    split_ifs at h ⊢ <;> simp_all <;> omega
  | word t => cases h; rfl
  | literal t => cases h; rfl
  | name t => cases h; rfl

theorem nest_inert (b : Bool) (k : Nat) {ts : List Token} (h : ∀ t ∈ ts, t.isInert = true) :
    nest b k ts = some k := by
  induction ts with
  | nil => rfl
  | cons t ts ih =>
    obtain ⟨ht, hts⟩ := List.forall_mem_cons.mp h
    simp only [isInert, Bool.and_eq_true, Bool.not_eq_true', decide_eq_true_eq] at ht
    obtain ⟨⟨⟨hj, -⟩, ho⟩, hc⟩ := ht
    have hstep : t.depthAfter k = some k := by
      cases t with
      | sign c => simp_all [depthAfter]
      | word t => rfl
      | literal t => rfl
      | name t => rfl
    simp [nest, hj, hstep, ih hts]

/-- Tokens that pass a count pass it inside further parentheses; junctions that a strict count would
not pass must be inside of them. -/
theorem nest_add {b c : Bool} {i j k : Nat} {ts : List Token} (h : nest b i ts = some j)
    (hc : c = true → b = true ∨ 0 < k) : nest c (i + k) ts = some (j + k) := by
  induction ts generalizing i with
  | nil => cases h; rfl
  | cons t ts ih =>
    simp only [nest] at h
    split at h
    · cases h
    next hj =>
      obtain ⟨l, hl, h⟩ := Option.bind_eq_some_iff.mp h
      have hj' : ¬(i + k = 0 ∧ c ∧ t.isJunction) := by
        rintro ⟨hdepth, hstrict, ht⟩
        have hb : b = true := (hc hstrict).resolve_right (by omega)
        exact hj ⟨by omega, hb, ht⟩
      rw [nest, if_neg hj', depthAfter_add hl k, Option.bind_some]
      exact ih h

end Token

/-- Where a reader stands between two pieces. -/
structure Place where
  /-- Whether every piece may follow. -/
  isFree : Bool
  /-- How many parentheses are open. -/
  depth : Nat
  deriving DecidableEq

namespace Lexis

/-- Whether a text ends between tokens. -/
def endsFree (x : Lexis) (t : Text) : Bool := (x.scan .gap t).2 = .gap

/-- Whether a text begins with a separator. -/
def startsFree (x : Lexis) : Text → Bool
  | [] => false
  | c :: _ => x.isSeparator c

end Lexis

namespace Sql

variable (x : Lexis) (b : Bool)

/-- Where a reader stands after fixed words. -/
def walkCode (p : Place) (t : Text) : Option Place :=
  if x.startsFree t || p.isFree then
    match x.lex t with
    | some ts => (Token.nest b p.depth ts).map (⟨x.endsFree t, ·⟩)
    | none => none
  else none

/-- Where a reader stands after some pieces. -/
def walk : Place → Sql → Option Place
  | p, [] => some p
  | p, .code t :: s => (walkCode x b p t).bind (walk · s)
  | p, .literal _ :: s => if p.isFree then walk ⟨false, p.depth⟩ s else none
  | p, .identifier _ :: s => if p.isFree then walk ⟨false, p.depth⟩ s else none
  | p, .number _ :: s => if p.isFree then walk ⟨false, p.depth⟩ s else none

theorem walk_append (p : Place) (s t : Sql) :
    walk x b p (s ++ t) = (walk x b p s).bind (walk x b · t) := by
  induction s generalizing p with
  | nil => rfl
  | cons q s ih =>
    cases q with
    | code c => simp only [List.cons_append, walk, ih, Option.bind_assoc]
    | literal c => simp only [List.cons_append, walk, ih]; split <;> rfl
    | identifier c => simp only [List.cons_append, walk, ih]; split <;> rfl
    | number c => simp only [List.cons_append, walk, ih]; split <;> rfl

end Sql

/-- What the rules of an engine ask of a piece: that a literal, a name or a number is one. Fixed
words are looked at where they stand. -/
def Piece.IsValid (x : Lexis) : Piece → Prop
  | .code _ => True
  | .literal t => ∃ u, x.lex t = some [.literal u]
  | .identifier t => ∃ u, x.lex t = some [.name u]
  | .number t => ∃ ts, x.lex t = some ts ∧ ts ≠ [] ∧ ∀ u ∈ ts, u.isInert = true

/-- The tokens of a piece by itself. -/
def Piece.tokens (x : Lexis) (p : Piece) : List Token := (x.lex p.text).getD []

theorem Piece.lex_of_isValid {x : Lexis} {p : Piece} (hp : p.IsValid x) (hcode : ∀ t, p ≠ .code t) :
    x.lex p.text = some (p.tokens x) ∧ ∀ u ∈ p.tokens x, u.isInert = true := by
  cases p with
  | code t => exact absurd rfl (hcode t)
  | literal t =>
    obtain ⟨u, hu⟩ := hp
    simp [Piece.tokens, Piece.text, hu, Token.isInert, Token.isJunction, Token.isNegation,
      Token.isKeyword]
  | identifier t =>
    obtain ⟨u, hu⟩ := hp
    simp [Piece.tokens, Piece.text, hu, Token.isInert, Token.isJunction, Token.isNegation,
      Token.isKeyword]
  | number t =>
    obtain ⟨ts, hts, -, hinert⟩ := hp
    simpa [Piece.tokens, Piece.text, hts] using hinert

namespace Sql

/-- The tokens of the pieces. -/
def tokens (x : Lexis) (s : Sql) : List Token := s.flatMap (Piece.tokens x)

theorem tokens_cons (x : Lexis) (p : Piece) (s : Sql) :
    tokens x (p :: s) = p.tokens x ++ tokens x s := rfl

@[simp] theorem tokens_append (x : Lexis) (s t : Sql) :
    tokens x (s ++ t) = tokens x s ++ tokens x t := by
  simp [tokens]

variable {x : Lexis} {b : Bool}

/-- Where not every piece may follow, what does follow begins with a separator. -/
theorem render_of_walk {k : Nat} {s : Sql} {q : Place} (h : walk x b ⟨false, k⟩ s = some q) :
    s.render = [] ∨ ∃ c t, s.render = c :: t ∧ x.isSeparator c = true := by
  cases s with
  | nil => exact .inl rfl
  | cons p s =>
    cases p with
    | code t =>
      obtain ⟨r, hr, -⟩ := Option.bind_eq_some_iff.mp h
      simp only [walkCode, Bool.or_false] at hr
      split at hr
      next hstart =>
        cases t with
        | nil => simp [Lexis.startsFree] at hstart
        | cons c t => exact .inr ⟨c, t ++ render s, rfl, hstart⟩
      next => cases hr
    | literal t => simp [walk] at h
    | identifier t => simp [walk] at h
    | number t => simp [walk] at h

theorem lex_text_append {k : Nat} {t : Text} {a : List Token} {s : Sql} {q : Place}
    (ha : x.lex t = some a) (h : walk x b ⟨false, k⟩ s = some q) :
    x.lex (t ++ s.render) = (x.lex s.render).map (a ++ ·) := by
  obtain hnil | ⟨c, u, hcons, hc⟩ := render_of_walk h
  · simp [hnil, ha]
  · rw [hcons, x.lex_append_of_separator ha hc]

/-- What may follow fixed words is read by itself. -/
theorem lex_code_append {p r q : Place} {t : Text} {s : Sql} (hr : walkCode x b p t = some r)
    (h : walk x b r s = some q) :
    ∃ a, x.lex t = some a ∧ Token.nest b p.depth a = some r.depth ∧
      x.lex (t ++ s.render) = (x.lex s.render).map (a ++ ·) := by
  unfold walkCode at hr
  split at hr
  next =>
    split at hr
    next a ha =>
      obtain ⟨l, hl, rfl⟩ := Option.map_eq_some_iff.mp hr
      refine ⟨a, ha, hl, ?_⟩
      by_cases hfree : x.endsFree t
      · have hgap : (x.scan .gap t).2 = .gap := by simpa [Lexis.endsFree] using hfree
        have hscan : x.scan .gap t = (a, .gap) := by
          simp only [Lexis.lex, hgap, Mode.flush, Option.map_some, List.append_nil,
            Option.some.injEq] at ha
          exact Prod.ext ha hgap
        exact x.lex_append_of_gap hscan _
      · rw [Bool.not_eq_true] at hfree
        rw [hfree] at h
        exact lex_text_append ha h
    next => cases hr
  next => cases hr

/-- A row of valid pieces whose outline can be gone through is read piece by piece, and the
parentheses stand as the outline says. -/
theorem lex_render {p q : Place} {s : Sql} (hv : ∀ y ∈ s, y.IsValid x)
    (h : walk x b p s = some q) :
    x.lex s.render = some (s.tokens x) ∧ Token.nest b p.depth (s.tokens x) = some q.depth := by
  induction s generalizing p with
  | nil => cases h; exact ⟨rfl, rfl⟩
  | cons y s ih =>
    obtain ⟨hy, hs⟩ := List.forall_mem_cons.mp hv
    have hquoted (hcode : ∀ t, y ≠ .code t) (h : walk x b ⟨false, p.depth⟩ s = some q) :
        x.lex (render (y :: s)) = some (tokens x (y :: s)) ∧
          Token.nest b p.depth (tokens x (y :: s)) = some q.depth := by
      obtain ⟨hlex, hinert⟩ := Piece.lex_of_isValid hy hcode
      obtain ⟨hrest, hnest⟩ := ih hs h
      constructor
      · rw [show render (y :: s) = y.text ++ render s from rfl, lex_text_append hlex h, hrest]
        rfl
      · rw [tokens_cons, Token.nest_append, Token.nest_inert b _ hinert]
        exact hnest
    cases y with
    | code t =>
      obtain ⟨r, hr, h⟩ := Option.bind_eq_some_iff.mp h
      obtain ⟨a, ha, hdepth, hlex⟩ := lex_code_append hr h
      obtain ⟨hrest, hnest⟩ := ih hs h
      have htokens : tokens x (.code t :: s) = a ++ tokens x s := by
        simp [tokens_cons, Piece.tokens, Piece.text, ha]
      constructor
      · rw [show render (.code t :: s) = t ++ render s from rfl, hlex, hrest, htokens]
        rfl
      · rw [htokens, Token.nest_append, hdepth]
        exact hnest
    | literal t =>
      simp only [walk] at h
      split at h
      · exact hquoted (by simp) h
      · cases h
    | identifier t =>
      simp only [walk] at h
      split at h
      · exact hquoted (by simp) h
      · cases h
    | number t =>
      simp only [walk] at h
      split at h
      · exact hquoted (by simp) h
      · cases h

end Sql

end DocStore
