import DocStore.Filter.Condition
import DocStore.Proofs.Sql.Form

/-!
Formulas of SQL. The tokens of a condition are read by precedence: parentheses
bind first, then NOT, then AND, then OR. What is none of these is an atom. Truth
has three values, since SQL does not know what holds of what is missing.
-/

namespace DocStore

/-- Truth as SQL knows it. -/
inductive Truth where
  | no
  | unknown
  | yes
  deriving DecidableEq

namespace Truth

/-- The truth of a negation. -/
def not : Truth → Truth
  | no => yes
  | unknown => unknown
  | yes => no

/-- The truth of a conjunction. -/
def and : Truth → Truth → Truth
  | no, _ => no
  | _, no => no
  | yes, t => t
  | t, yes => t
  | unknown, unknown => unknown

/-- The truth of a disjunction. -/
def or : Truth → Truth → Truth
  | yes, _ => yes
  | _, yes => yes
  | no, t => t
  | t, no => t
  | unknown, unknown => unknown

end Truth

namespace Glue

/-- The truth of two clauses together. -/
def both : Glue → Truth → Truth → Truth
  | .and => Truth.and
  | .or => Truth.or

/-- The truth that makes no difference to others. -/
def neutral : Glue → Truth
  | .and => .yes
  | .or => .no

/-- The truth of clauses together. -/
def truth (g : Glue) (ts : List Truth) : Truth := ts.foldr g.both g.neutral

@[simp] theorem truth_nil (g : Glue) : g.truth [] = g.neutral := rfl

theorem both_neutral (g : Glue) (t : Truth) : g.both t g.neutral = t := by
  cases g <;> cases t <;> rfl

theorem neutral_both (g : Glue) (t : Truth) : g.both g.neutral t = t := by
  cases g <;> cases t <;> rfl

theorem both_assoc (g : Glue) (t u v : Truth) :
    g.both (g.both t u) v = g.both t (g.both u v) := by
  cases g <;> cases t <;> cases u <;> cases v <;> rfl

@[simp] theorem truth_cons (g : Glue) (t : Truth) (ts : List Truth) :
    g.truth (t :: ts) = g.both t (g.truth ts) := rfl

theorem truth_append (g : Glue) (ts us : List Truth) :
    g.truth (ts ++ us) = g.both (g.truth ts) (g.truth us) := by
  induction ts with
  | nil => exact (g.neutral_both _).symm
  | cons t ts ih => rw [List.cons_append, truth_cons, ih, truth_cons, both_assoc]

/-- The keyword between clauses. -/
def keyword : Glue → Text
  | .and => "AND"
  | .or => "OR"

/-- The token between clauses. -/
def token (g : Glue) : Token := .word g.keyword

end Glue

/-- A formula over atoms. -/
inductive Formula (α : Type) where
  | atom (a : α)
  | not (f : Formula α)
  | join (g : Glue) (left right : Formula α)

namespace Formula

variable {α β : Type}

/-- The truth of a formula when the truth of its atoms is known. -/
def eval (v : α → Truth) : Formula α → Truth
  | atom a => v a
  | not f => (f.eval v).not
  | join g left right => g.both (left.eval v) (right.eval v)

/-- The atoms of a formula. -/
def atoms : Formula α → List α
  | atom a => [a]
  | not f => f.atoms
  | join _ left right => left.atoms ++ right.atoms

/-- The formula in which every atom is replaced by a formula. -/
def bind (f : Formula α) (e : α → Formula β) : Formula β :=
  match f with
  | atom a => e a
  | not f => .not (f.bind e)
  | join g left right => .join g (left.bind e) (right.bind e)

/-! ### Reading -/

/-- The tokens before and after the first keyword outside of all parentheses. -/
def cut (g : Glue) : Nat → List Token → Option (List Token × List Token)
  | _, [] => none
  | k, t :: ts =>
    if k = 0 ∧ t.isKeyword g.keyword then some ([], ts)
    else (t.depthAfter k).bind fun k => (cut g k ts).map fun parts => (t :: parts.1, parts.2)

/-- The tokens before the parenthesis that closes the first one, when it is the last token. -/
def closing : Nat → List Token → Option (List Token)
  | _, [] => none
  | k, t :: ts =>
    if k = 0 ∧ t = .sign ')' then if ts = [] then some [] else none
    else (t.depthAfter k).bind fun k => (closing k ts).map (t :: ·)

/-- The tokens between parentheses around all of them. -/
def group? : List Token → Option (List Token)
  | [] => none
  | t :: ts => if t = .sign '(' then closing 0 ts else none

theorem length_of_cut {g : Glue} {k : Nat} {ts a b : List Token} (h : cut g k ts = some (a, b)) :
    a.length < ts.length ∧ b.length < ts.length := by
  induction ts generalizing k a with
  | nil => cases h
  | cons t ts ih =>
    simp only [cut] at h
    split at h
    · cases h
      simp
    · obtain ⟨l, -, h⟩ := Option.bind_eq_some_iff.mp h
      obtain ⟨parts, hcut, h⟩ := Option.map_eq_some_iff.mp h
      cases h
      obtain ⟨ha, hb⟩ := ih (a := parts.1) hcut
      exact ⟨Nat.succ_lt_succ ha, Nat.lt_succ_of_lt hb⟩

theorem length_of_closing {k : Nat} {ts a : List Token} (h : closing k ts = some a) :
    a.length < ts.length := by
  induction ts generalizing k a with
  | nil => cases h
  | cons t ts ih =>
    simp only [closing] at h
    split at h
    · split at h
      · cases h
        simp
      · cases h
    · obtain ⟨l, -, h⟩ := Option.bind_eq_some_iff.mp h
      obtain ⟨a, hclosing, rfl⟩ := Option.map_eq_some_iff.mp h
      simpa using ih hclosing

theorem length_of_group? {ts a : List Token} (h : group? ts = some a) : a.length < ts.length := by
  cases ts with
  | nil => cases h
  | cons t ts =>
    simp only [group?] at h
    split at h
    · have := length_of_closing h
      simp only [List.length_cons]
      omega
    · cases h

/-- What some tokens are at the outermost level. -/
inductive Layer where
  | atom
  | not (ts : List Token)
  | join (g : Glue) (left right : List Token)
  | group (ts : List Token)

/-- The outermost level of some tokens, by precedence. -/
def layer (ts : List Token) : Layer :=
  match cut .or 0 ts with
  | some (a, b) => .join .or a b
  | none =>
    match cut .and 0 ts with
    | some (a, b) => .join .and a b
    | none =>
      match ts with
      | [] => .atom
      | t :: rest =>
        if t.isNegation then .not rest
        else
          match group? (t :: rest) with
          | some inner => .group inner
          | none => .atom

/-- The tokens that a level leaves to be read. -/
def Layer.rest : Layer → List (List Token)
  | .atom => []
  | .not ts => [ts]
  | .join _ a b => [a, b]
  | .group ts => [ts]

theorem length_of_layer {ts us : List Token} (h : us ∈ (layer ts).rest) :
    us.length < ts.length := by
  unfold layer at h
  split at h
  next a b hcut =>
    obtain ⟨ha, hb⟩ := length_of_cut hcut
    simp only [Layer.rest, List.mem_cons, List.not_mem_nil, or_false] at h
    obtain rfl | rfl := h <;> assumption
  next =>
    split at h
    next a b hcut =>
      obtain ⟨ha, hb⟩ := length_of_cut hcut
      simp only [Layer.rest, List.mem_cons, List.not_mem_nil, or_false] at h
      obtain rfl | rfl := h <;> assumption
    next =>
      split at h
      next => simp [Layer.rest] at h
      next t rest _ _ =>
        split at h
        next =>
          obtain rfl : us = rest := by simpa [Layer.rest] using h
          simp
        next =>
          split at h
          next inner hgroup =>
            obtain rfl : us = inner := by simpa [Layer.rest] using h
            exact length_of_group? hgroup
          next => simp [Layer.rest] at h

/-- The formula of some tokens, by precedence. -/
def read (ts : List Token) : Formula (List Token) :=
  match _hl : layer ts with
  | .atom => .atom ts
  | .not us => .not (read us)
  | .join g a b => .join g (read a) (read b)
  | .group us => read us
termination_by ts.length
decreasing_by all_goals exact length_of_layer (by simp [_hl, Layer.rest])

/-- The formula of a text, when the text can be read to its end and its parentheses match. -/
def ofText (x : Lexis) (t : Text) : Option (Formula (List Token)) :=
  (x.lex t).bind fun ts => if Token.nest false 0 ts = some 0 then some (read ts) else none

/-! ### What is read from operands that are put together -/

theorem isKeyword_token (g : Glue) : g.token.isKeyword g.keyword = true := by
  cases g <;> rfl

theorem isJunction_of_isKeyword {g : Glue} {t : Token} (h : t.isKeyword g.keyword = true) :
    t.isJunction = true := by
  cases g with
  | and => simp only [Token.isJunction, Bool.or_eq_true]; exact .inl h
  | or => simp only [Token.isJunction, Bool.or_eq_true]; exact .inr h

/-- A strictly balanced beginning is passed over. -/
theorem cut_append {g : Glue} {j k : Nat} {a : List Token} (h : Token.nest true k a = some j)
    (b : List Token) : cut g k (a ++ b) = (cut g j b).map fun parts => (a ++ parts.1, parts.2) := by
  induction a generalizing k with
  | nil =>
    cases h
    simp
  | cons t a ih =>
    simp only [Token.nest] at h
    split at h
    · cases h
    next hj =>
      obtain ⟨l, hl, h⟩ := Option.bind_eq_some_iff.mp h
      have hg : ¬(k = 0 ∧ t.isKeyword g.keyword) := by
        rintro ⟨hk, ht⟩
        exact hj ⟨hk, trivial, isJunction_of_isKeyword ht⟩
      rw [List.cons_append, cut, if_neg hg, hl, Option.bind_some, ih h]
      simp [Option.map_map, Function.comp_def]

theorem cut_of_nest {g : Glue} {j k : Nat} {a : List Token} (h : Token.nest true k a = some j) :
    cut g k a = none := by
  simpa [cut] using cut_append (g := g) h []

theorem cut_token (g : Glue) (ts : List Token) : cut g 0 (g.token :: ts) = some ([], ts) := by
  rw [cut, if_pos ⟨rfl, isKeyword_token g⟩]

theorem cut_or_and (ts : List Token) :
    cut .or 0 (Glue.and.token :: ts) =
      (cut .or 0 ts).map fun parts => (Glue.and.token :: parts.1, parts.2) := by
  rw [cut, if_neg (by decide)]
  rfl

theorem closing_append {k : Nat} {a : List Token} (h : Token.nest false k a = some 0) :
    closing k (a ++ [.sign ')']) = some a := by
  induction a generalizing k with
  | nil =>
    cases h
    rfl
  | cons t a ih =>
    simp only [Token.nest, Bool.false_eq_true, false_and, and_false, if_false] at h
    obtain ⟨l, hl, h⟩ := Option.bind_eq_some_iff.mp h
    have ht : ¬(k = 0 ∧ t = .sign ')') := by
      rintro ⟨rfl, rfl⟩
      have hnone : none = some l := hl
      cases hnone
    rw [List.cons_append, closing, if_neg ht, hl, Option.bind_some, ih h]
    rfl

/-- Tokens in parentheses. -/
def grouped (ts : List Token) : List Token := .sign '(' :: (ts ++ [.sign ')'])

theorem nest_grouped {ts : List Token} {b : Bool} (h : Token.nest b 0 ts = some 0) :
    Token.nest true 0 (grouped ts) = some 0 := by
  have hinner : Token.nest true 1 ts = some 1 := Token.nest_add h (k := 1) (by simp)
  have hopen : Token.nest true 0 [.sign '('] = some 1 := by decide
  have hclose : Token.nest true 1 [.sign ')'] = some 0 := by decide
  rw [grouped, ← List.singleton_append, Token.nest_append, hopen, Option.bind_some,
    Token.nest_append, hinner, Option.bind_some, hclose]

/-- Parentheses around all tokens make no difference. -/
theorem read_grouped {ts : List Token} (h : Token.nest false 0 ts = some 0) :
    read (grouped ts) = read ts := by
  have hgroup : group? (grouped ts) = some ts := closing_append h
  have hcut (g : Glue) : cut g 0 (grouped ts) = none := cut_of_nest (nest_grouped h)
  have hlayer : layer (grouped ts) = .group ts := by
    have hsign : Token.isNegation (.sign '(') = false := by decide
    unfold grouped at hgroup hcut ⊢
    simp [layer, hcut, hgroup, hsign]
  rw [read]
  split <;> simp_all

/-- What is read after a NOT is negated. -/
theorem read_negation {ts : List Token} (h : Token.nest true 0 ts = some 0) :
    read (.word "NOT" :: ts) = .not (read ts) := by
  have hcut (g : Glue) : cut g 0 (.word "NOT" :: ts) = none := by
    have hnest : Token.nest true 0 (.word "NOT" :: ts) = some 0 := h
    exact cut_of_nest hnest
  have hlayer : layer (.word "NOT" :: ts) = .not ts := by
    simp only [layer, hcut]
    rw [if_pos (by decide)]
  rw [read]
  split <;> simp_all

/-- Operands with a keyword between them. -/
def joined (g : Glue) (parts : List (List Token)) : List Token := List.intercalate [g.token] parts

theorem joined_singleton (g : Glue) (ts : List Token) : joined g [ts] = ts := by
  simp [joined, List.intercalate]

theorem joined_cons_cons (g : Glue) (ts us : List Token) (parts : List (List Token)) :
    joined g (ts :: us :: parts) = ts ++ g.token :: joined g (us :: parts) := by
  simp [joined, List.intercalate]

theorem joined_append (g : Glue) {ps qs : List (List Token)} (hps : ps ≠ []) (hqs : qs ≠ []) :
    joined g (ps ++ qs) = joined g ps ++ g.token :: joined g qs := by
  induction ps with
  | nil => exact absurd rfl hps
  | cons ts ps ih =>
    cases ps with
    | nil =>
      obtain ⟨us, qs, rfl⟩ := List.exists_cons_of_ne_nil hqs
      rw [List.singleton_append, joined_cons_cons, joined_singleton]
    | cons us ps =>
      rw [List.cons_append, List.cons_append, joined_cons_cons, joined_cons_cons,
        ← List.cons_append, ih (by simp)]
      simp

theorem nest_joined (g : Glue) {parts : List (List Token)}
    (h : ∀ ts ∈ parts, Token.nest true 0 ts = some 0) :
    Token.nest false 0 (joined g parts) = some 0 := by
  induction parts with
  | nil => rfl
  | cons ts parts ih =>
    obtain ⟨hts, hparts⟩ := List.forall_mem_cons.mp h
    have hts' : Token.nest false 0 ts = some 0 := Token.nest_add hts (k := 0) (by simp)
    cases parts with
    | nil => rwa [joined_singleton]
    | cons us parts =>
      have htoken : Token.nest false 0 [g.token] = some 0 := by cases g <;> decide
      rw [joined_cons_cons, Token.nest_append, hts', Option.bind_some, ← List.singleton_append,
        Token.nest_append, htoken, Option.bind_some]
      exact ih hparts

/-- No OR is found outside of the parentheses of a conjunction. -/
theorem cut_or_joined {parts : List (List Token)} (h : ∀ ts ∈ parts, Token.nest true 0 ts = some 0) :
    cut .or 0 (joined .and parts) = none := by
  induction parts with
  | nil => rfl
  | cons ts parts ih =>
    obtain ⟨hts, hparts⟩ := List.forall_mem_cons.mp h
    cases parts with
    | nil => rw [joined_singleton, cut_of_nest hts]
    | cons us parts => rw [joined_cons_cons, cut_append hts, cut_or_and, ih hparts]; rfl

/-- What is read of operands is joined as the operands are. -/
theorem read_joined (g : Glue) {ts us : List Token} {parts : List (List Token)}
    (h : ∀ vs ∈ ts :: us :: parts, Token.nest true 0 vs = some 0) :
    read (joined g (ts :: us :: parts)) = .join g (read ts) (read (joined g (us :: parts))) := by
  have hts : Token.nest true 0 ts = some 0 := h ts (by simp)
  have hcut : cut g 0 (joined g (ts :: us :: parts)) = some (ts, joined g (us :: parts)) := by
    rw [joined_cons_cons, cut_append hts, cut_token]
    simp
  have hlayer : layer (joined g (ts :: us :: parts)) =
      .join g ts (joined g (us :: parts)) := by
    cases g with
    | or => simp only [layer, hcut]
    | and => simp only [layer, hcut, cut_or_joined h]
  rw [read]
  split <;> simp_all

end Formula

end DocStore
